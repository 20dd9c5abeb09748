import StreamMatch.Match.Basic

/-!
Where the nodes of a match lie in the stream. A match is faithful if each node of its tree has the
content that the stream has at its span, with its submatches in order inside (`Match.Faithful`).
Faithful matches that tile a span make up a faithful match of it, also if some of them are left out
of its submatches (`Match.Spans.of_tile`).
-/

namespace StreamMatch.Match

/-- The matches lie one after the other, without overlap, between two offsets. -/
def InOrder (start : Nat) : List Match → (stop : Nat) → Prop
  | [], stop => start ≤ stop
  | m :: rest, stop => start ≤ m.offset ∧ InOrder (m.offset + m.length) rest stop

/-- The matches cover the bytes between two offsets, one after the other and without a gap. -/
def Tile (start : Nat) : List Match → (stop : Nat) → Prop
  | [], stop => start = stop
  | m :: rest, stop => m.offset = start ∧ Tile (start + m.length) rest stop

/-- The content of a node is what the stream has at its span, and its submatches lie in order inside
of this. -/
structure Shows (stream : List UInt8) (node : Match) : Prop where
  content_eq : node.content = (stream.drop node.offset).take node.length
  inOrder : InOrder node.offset node.submatches (node.offset + node.length)

/-- Every node of the tree shows what the stream has there. -/
def Faithful (stream : List UInt8) (m : Match) : Prop :=
  ∀ path node, m.descendant? path = some node → node.Shows stream

variable {stream : List UInt8} {start middle stop : Nat} {ms : List Match}

namespace Faithful

theorem shows {m : Match} (hFaithful : m.Faithful stream) : m.Shows stream :=
  hFaithful [] m rfl

theorem of_shows {m : Match} (hShows : m.Shows stream)
    (hSubmatches : ∀ submatch ∈ m.submatches, submatch.Faithful stream) : m.Faithful stream := by
  intro path node hNode
  cases path with
  | nil =>
    obtain rfl := Option.some.inj hNode
    exact hShows
  | cons index path =>
    obtain ⟨submatch, hIndex, hPath⟩ := Option.bind_eq_some_iff.1 hNode
    exact hSubmatches submatch (List.mem_of_getElem? hIndex) path node hPath

/-- A match without submatches is faithful if its content is in front at its offset. -/
theorem leaf {tag : Tag} {content : List UInt8} {offset : Nat}
    (hContent : content <+: stream.drop offset) : (Match.leaf tag content offset).Faithful stream :=
  of_shows ⟨List.prefix_iff_eq_take.1 hContent, Nat.le_add_right _ _⟩ (by simp [Match.leaf, composite])

end Faithful

namespace InOrder

theorem mono {first : Nat} (hStart : first ≤ start) (hOrder : InOrder start ms stop) :
    InOrder first ms stop := by
  cases ms with
  | nil => exact Nat.le_trans hStart hOrder
  | cons m rest => exact ⟨Nat.le_trans hStart hOrder.1, hOrder.2⟩

/-- Leaving out some of the matches does not put the others out of order. -/
theorem sublist {left : List Match} (hLeft : left.Sublist ms) (hOrder : InOrder start ms stop) :
    InOrder start left stop := by
  induction hLeft generalizing start with
  | slnil => exact hOrder
  | cons m hRest ih =>
    exact mono (Nat.le_trans hOrder.1 (Nat.le_add_right _ _)) (ih hOrder.2)
  | cons_cons m hRest ih => exact ⟨hOrder.1, ih hOrder.2⟩

end InOrder

namespace Tile

theorem inOrder (hTile : Tile start ms stop) : InOrder start ms stop := by
  induction ms generalizing start with
  | nil => exact Nat.le_of_eq hTile
  | cons m rest ih =>
    obtain ⟨rfl, hRest⟩ := hTile
    exact ⟨Nat.le_refl _, ih hRest⟩

theorem stop_eq (hTile : Tile start ms stop) :
    stop = start + (ms.flatMap (·.content)).length := by
  induction ms generalizing start with
  | nil => exact hTile.symm
  | cons m rest ih =>
    rw [ih hTile.2, List.flatMap_cons, List.length_append, length, Nat.add_assoc]

/-- Matches that tile a span have its content one after the other. -/
theorem content_eq (hTile : Tile start ms stop) (hShows : ∀ m ∈ ms, m.Shows stream) :
    ms.flatMap (·.content) =
      (stream.drop start).take (ms.flatMap (·.content)).length := by
  induction ms generalizing start with
  | nil => rfl
  | cons m rest ih =>
    obtain ⟨rfl, hRest⟩ := hTile
    have hContent := (hShows m List.mem_cons_self).content_eq
    have hMore := ih hRest fun m hMem => hShows m (List.mem_cons_of_mem _ hMem)
    rw [List.flatMap_cons, List.length_append, List.take_add, List.drop_drop]
    exact congr (congrArg _ hContent) hMore

end Tile

/-- The submatches cover the span of the node. -/
def Tiled (node : Match) : Prop :=
  Tile node.offset node.submatches (node.offset + node.length)

/-- A faithful match of the bytes between two offsets. -/
structure Spans (stream : List UInt8) (m : Match) (start stop : Nat) : Prop where
  offset_eq : m.offset = start
  stop_eq : stop = start + m.length
  faithful : m.Faithful stream

namespace Spans

theorem leaf {tag : Tag} {content : List UInt8} (hContent : content <+: stream.drop start) :
    Spans stream (Match.leaf tag content start) start (start + content.length) :=
  ⟨rfl, rfl, .leaf hContent⟩

/-- Faithful matches that tile a span make up a faithful match of it, also if not all of them are
among its submatches. -/
theorem of_tile {m : Match} {pieces : List Match} (hTile : Tile start pieces stop)
    (hPieces : ∀ piece ∈ pieces, piece.Faithful stream) (hOffset : m.offset = start)
    (hContent : m.content = pieces.flatMap (·.content)) (hSubmatches : m.submatches.Sublist pieces) :
    m.Spans stream start stop := by
  have hStop : stop = start + m.length := by rw [length, hContent, hTile.stop_eq]
  refine ⟨hOffset, hStop, .of_shows ⟨?_, ?_⟩ ?_⟩
  · rw [length, hContent, hOffset]
    exact hTile.content_eq fun piece hMem => (hPieces piece hMem).shows
  · rw [hOffset, ← hStop]
    exact hTile.inOrder.sublist hSubmatches
  · exact fun submatch hMem => hPieces submatch (hSubmatches.subset hMem)

theorem tiled {m : Match} (hSpans : m.Spans stream start stop)
    (hTile : Tile start m.submatches stop) : m.Tiled := by
  rw [Tiled, hSpans.offset_eq, ← hSpans.stop_eq]
  exact hTile

end Spans

end StreamMatch.Match
