import StreamMatch.Proofs.AbandonedForks

/-!
Chains of forks. On every cursor of a chain there may be reading ahead, matching that fails, and
forks that are left behind, before the next cursor is forked from it (`Session.Speculates`). When
the last cursor is then committed down the whole chain, every cursor of it comes to stand where the
last one has stood, and it is the commit to the root that discards (`Session.Speculates.commits`):
the root is where it would be, had it advanced there itself.
-/

namespace StreamMatch

open Reading Readers

/-- The command reads at a cursor and may move it on. -/
def Command.Reads : Command → Prop
  | .peek _ | .peekChars _ | .read _ | .readChars _ | .advance _ | .isAtEnd | .inspect
  | .locate _ => True
  | _ => False

namespace Session

/-- A session later on, whose window has only been read into, with the same cursors but for this
one, which is where it was or further on. -/
structure Strides (name : String) (before after : Session) : Prop where
  draws : before.window.Draws after.window
  cursor?_eq : ∀ other, other ≠ name → after.cursor? other = before.cursor? other
  onward : ∀ cursor, before.cursor? name = some cursor → ∃ later, after.cursor? name = some later ∧
    later.depth = cursor.depth ∧ later.traced = cursor.traced ∧ cursor.position ≤ later.position

variable {session : Session} {name : String} {cursor : Cursor}

namespace Strides

theorem refl (session : Session) (name : String) : Strides name session session :=
  ⟨.refl _, fun _ _ => rfl, fun cursor hCursor => ⟨cursor, hCursor, rfl, rfl, Nat.le_refl _⟩⟩

theorem run {α : Type} {action : Reading α} (hCursor : session.cursor? name = some cursor)
    (hAction : Leads action { window := session.window, cursor }
      (fun _ last => session.window.Draws last.window ∧
        Reader.Ventures { window := session.window, cursor } last)
      fun _ last => session.window.Draws last.window ∧
        Reader.Ventures { window := session.window, cursor } last) (answer : α → Answer) :
    Strides name session (session.run name cursor action answer).session := by
  obtain ⟨last, ⟨hDraws, hLast⟩, hSession⟩ := session.exists_run name answer hAction
  rw [hSession]
  refine ⟨hDraws, fun other hOther => ?_, fun found hFound => ?_⟩
  · rw [cursor?_insert, if_neg hOther]
    rfl
  · obtain rfl := Option.some.inj (hCursor.symm.trans hFound)
    rw [cursor?_insert, if_pos rfl]
    exact ⟨last.cursor, rfl, hLast.depth_eq, hLast.traced_eq, hLast.position_le⟩

end Strides

end Session

/-- A match that is not found leaves the cursor where it was. -/
theorem Grammar.leads_parse_miss (grammar : Grammar) (m : Matcher) (reader : Reader)
    (hWithin : reader.Within) :
    Leads (grammar.parse m) reader
      (fun found last => found = none →
        reader.window.Draws last.window ∧ last.cursor = reader.cursor)
      (fun _ last => reader.window.Draws last.window ∧ last.cursor = reader.cursor) := by
  have hFork := grammar.ventures_attempt m { reader with cursor := reader.cursor.fork } hWithin
  have hMiddle : Leads (onFork (grammar.attempt m)) reader
      (fun _ last => reader.window.Draws last.window ∧ last.cursor = reader.cursor)
      (fun _ last => reader.window.Draws last.window ∧ last.cursor = reader.cursor) := by
    apply leads_onFork.2
    apply hFork.mono
    · exact fun _ _ hLast => ⟨hLast.draws (Nat.succ_ne_zero _), rfl⟩
    · exact fun _ _ hLast => ⟨hLast.draws (Nat.succ_ne_zero _), rfl⟩
  apply hMiddle.bind (fun _ _ h => h)
  intro result middle hResult
  obtain ⟨found, fork⟩ := result
  cases found with
  | none => exact fun _ => hResult
  | some found =>
    apply (leads_commit fork middle).bind
    · intro _ last hLast
      rw [hLast.1]
      exact hResult
    · exact fun _ _ _ => nofun

namespace Session

variable {session : Session} {name : String} {cursor : Cursor}

/-- Reading at a cursor moves that cursor alone. -/
theorem strides_of_reads (hOrderly : session.Orderly) (grammar : Grammar) {command : Command}
    (hReads : command.Reads) (name : String) :
    Strides name session (session.step grammar name command).session := by
  rw [Session.step]
  cases hCursor : session.cursor? name with
  | none => exact .refl session name
  | some cursor =>
    have hRun {α : Type} {action : Reading α} (hDraws : Draws action)
        (hVentures : venturing.Kept action) (answer : α → Answer) :
        Strides name session (session.run name cursor action answer).session := by
      have hWithin := hOrderly.within name cursor hCursor
      have hReader := hDraws { window := session.window, cursor }
      exact .run hCursor (hReader.and (hVentures { window := session.window, cursor } hWithin)) answer
    cases command with
    | peek count => exact hRun (draws_peek count) (ventures.peek count) _
    | peekChars count => exact hRun (draws_peekChars count) (ventures.peekChars count) _
    | read count => exact hRun (draws_read count) (ventures.read count) _
    | readChars count =>
      exact hRun (draws_readChars count)
        ((observes_readChars count).ventures (draws_readChars count)) _
    | advance count =>
      exact hRun (draws_advance count) ((observes_advance count).ventures (draws_advance count)) _
    | isAtEnd => exact hRun draws_isAtEnd ventures.isAtEnd _
    | inspect => exact hRun (.pure cursor) (ventures.kept_pure cursor) _
    | locate other =>
      dsimp only [perform]
      cases session.cursor? other with
      | none => exact .refl session name
      | some second => exact hRun (draws_locate second.position) (ventures_locate second.position) _
    | _ => exact hReads.elim

/-- Nor is any other cursor moved by what does not match. -/
theorem strides_of_miss (hOrderly : session.Orderly) (grammar : Grammar) {m : Matcher}
    (hMiss : ∀ found,
      (session.step grammar name (.parse m)).answer ≠ .ok (.result (some found))) :
    Strides name session (session.step grammar name (.parse m)).session := by
  rw [Session.step] at *
  cases hCursor : session.cursor? name with
  | none => exact .refl session name
  | some cursor =>
    rw [hCursor] at hMiss
    have hWithin := hOrderly.within name cursor hCursor
    have hParse := grammar.leads_parse_miss m { window := session.window, cursor } hWithin
    have hLast {last : Reader} (hDraws : session.window.Draws last.window)
        (hSame : last.cursor = cursor) :
        Strides name session
          (Session.insert { session with window := last.window } name last.cursor) := by
      refine ⟨hDraws, fun other hOther => ?_, fun found hFound => ?_⟩
      · rw [cursor?_insert, if_neg hOther]
        rfl
      · obtain rfl := Option.some.inj (hCursor.symm.trans hFound)
        rw [cursor?_insert, if_pos rfl, hSame]
        exact ⟨cursor, rfl, rfl, rfl, Nat.le_refl _⟩
    dsimp only [perform] at hMiss ⊢
    cases hRun : grammar.parse m { window := session.window, cursor } with
    | ok found last =>
      rw [session.run_of_ok hRun] at hMiss ⊢
      cases found with
      | none =>
        obtain ⟨hDraws, hSame⟩ := hParse.of_ok hRun rfl
        exact hLast hDraws hSame
      | some found => exact (hMiss found rfl).elim
    | error halt last =>
      rw [session.run_of_error hRun]
      obtain ⟨hDraws, hSame⟩ := hParse.of_error hRun
      exact hLast hDraws hSame

end Session

/-- The hidden names that are not in the chain. -/
def offside (hidden : String → Bool) (chain : List String) (name : String) : Bool :=
  hidden name && !chain.contains name

/-- How a chain of forks grows from a root, with its last cursor first: `base` is the session in
which it is only the root. All other cursors that come about on the way have hidden names. -/
inductive Session.Speculates (grammar : Grammar) (hidden : String → Bool) (root : String)
    (base : Session) : List String → Session → Prop where
  | start : Speculates grammar hidden root base [root] base
  /-- The last cursor is forked. -/
  | fork {tip fresh : String} {rest : List String} {session : Session}
      (hPrior : Speculates grammar hidden root base (tip :: rest) session)
      (hHidden : hidden fresh = true) (hFresh : fresh ∉ tip :: rest) :
      Speculates grammar hidden root base (fresh :: tip :: rest)
        (session.step grammar tip (.fork fresh)).session
  /-- One of the cursors reads. -/
  | read {name : String} {command : Command} {chain : List String} {session : Session}
      (hPrior : Speculates grammar hidden root base chain session) (hName : name ∈ chain)
      (hReads : command.Reads) :
      Speculates grammar hidden root base chain (session.step grammar name command).session
  /-- A match is not found at one of the cursors. -/
  | miss {name : String} {m : Matcher} {chain : List String} {session : Session}
      (hPrior : Speculates grammar hidden root base chain session) (hName : name ∈ chain)
      (hMiss : ∀ found,
        (session.step grammar name (.parse m)).answer ≠ .ok (.result (some found))) :
      Speculates grammar hidden root base chain (session.step grammar name (.parse m)).session
  /-- Forks are made that do not belong to the chain, or something is done with them. -/
  | aside {name : String} {command : Command} {chain : List String} {session : Session}
      (hPrior : Speculates grammar hidden root base chain session)
      (hApart : command.Apart (offside hidden chain) name) :
      Speculates grammar hidden root base chain (session.step grammar name command).session

/-- The commits by which a chain is taken back, one cursor into the next. -/
def Command.commits : List String → List (String × Command)
  | child :: parent :: rest => (child, .commit parent) :: commits (parent :: rest)
  | _ => []

theorem Command.length_commits (tip parent : String) (rest : List String) :
    (commits (tip :: parent :: rest)).length = rest.length + 1 := by
  induction rest generalizing tip parent with
  | nil => rfl
  | cons next rest ih => rw [commits, List.length_cons, ih, List.length_cons]

namespace Session

/-- What a chain looks like that has grown from a root with this cursor. -/
structure Grown (hidden : String → Bool) (base : Session) (root : String) (start : Cursor)
    (chain : List String) (session : Session) : Prop where
  orderly : session.Orderly
  draws : base.window.Draws session.window
  cursor?_eq : ∀ name, hidden name = false → name ≠ root →
    session.cursor? name = base.cursor? name
  below : session.Below (offside hidden chain)
  hidden_of_ne : ∀ name ∈ chain, name ≠ root → hidden name = true
  nodup : chain.Nodup
  root_last : [root] <:+ chain
  stands : ∀ name rest, name :: rest <:+ chain → ∃ cursor, session.cursor? name = some cursor ∧
    cursor.depth = rest.length ∧ cursor.traced = start.traced ∧ start.position ≤ cursor.position

namespace Grown

variable {hidden : String → Bool} {base session after : Session} {root name : String}
  {start : Cursor} {chain : List String}

theorem offside_eq_false (hName : name ∈ chain) : offside hidden chain name = false := by
  simp [offside, hName]

theorem refl (hOrderly : base.Orderly) (hFresh : ∀ name, hidden name = true → base.cursor? name = none)
    (hStart : base.cursor? root = some start) (hRoot : start.depth = 0) :
    Grown hidden base root start [root] base where
  orderly := hOrderly
  draws := .refl _
  cursor?_eq _ _ _ := rfl
  below name cursor hName hCursor := by
    have hHidden : hidden name = true := by simp_all [offside]
    rw [hFresh name hHidden] at hCursor
    cases hCursor
  hidden_of_ne name hMem hNe := absurd (List.mem_singleton.1 hMem) hNe
  nodup := List.nodup_singleton root
  root_last := List.suffix_refl _
  stands name rest hSuffix := by
    obtain ⟨rfl, rfl⟩ : name = root ∧ rest = [] := by
      simpa [List.suffix_cons_iff] using hSuffix
    exact ⟨start, hStart, hRoot, rfl, Nat.le_refl _⟩

/-- One of the cursors has gone on. -/
theorem strides (hGrown : Grown hidden base root start chain session) (hName : name ∈ chain)
    (hStrides : Strides name session after) (hOrderly : after.Orderly) :
    Grown hidden base root start chain after where
  orderly := hOrderly
  draws := hGrown.draws.trans hStrides.draws
  cursor?_eq other hOther hNe := by
    have hDiffers : other ≠ name := by
      rintro rfl
      simp [hGrown.hidden_of_ne other hName hNe] at hOther
    rw [hStrides.cursor?_eq other hDiffers, hGrown.cursor?_eq other hOther hNe]
  below other cursor hOther hCursor := by
    have hDiffers : other ≠ name := by
      rintro rfl
      simp [offside_eq_false hName] at hOther
    rw [hStrides.cursor?_eq other hDiffers] at hCursor
    exact hGrown.below other cursor hOther hCursor
  hidden_of_ne := hGrown.hidden_of_ne
  nodup := hGrown.nodup
  root_last := hGrown.root_last
  stands other rest hSuffix := by
    obtain ⟨cursor, hCursor, hDepth, hTraced, hPosition⟩ := hGrown.stands other rest hSuffix
    by_cases hSame : other = name
    · subst hSame
      obtain ⟨later, hLater, hLaterDepth, hLaterTraced, hOnward⟩ := hStrides.onward cursor hCursor
      exact ⟨later, hLater, hLaterDepth.trans hDepth, hLaterTraced.trans hTraced,
        Nat.le_trans hPosition hOnward⟩
    · rw [hStrides.cursor?_eq other hSame]
      exact ⟨cursor, hCursor, hDepth, hTraced, hPosition⟩

/-- What is done beside the chain leaves it as it is. -/
theorem beside (hGrown : Grown hidden base root start chain session)
    (hBeside : Beside (offside hidden chain) session after) (hOrderly : after.Orderly) :
    Grown hidden base root start chain after where
  orderly := hOrderly
  draws := hGrown.draws.trans hBeside.draws
  cursor?_eq other hOther hNe := by
    have hOutside : offside hidden chain other = false := by simp [offside, hOther]
    rw [hBeside.cursor?_eq other hOutside, hGrown.cursor?_eq other hOther hNe]
  below := hBeside.below
  hidden_of_ne := hGrown.hidden_of_ne
  nodup := hGrown.nodup
  root_last := hGrown.root_last
  stands other rest hSuffix := by
    have hMem : other ∈ chain := hSuffix.subset List.mem_cons_self
    rw [hBeside.cursor?_eq other (offside_eq_false hMem)]
    exact hGrown.stands other rest hSuffix

/-- The last cursor is forked. -/
theorem fork {tip fresh : String} {rest : List String}
    (hGrown : Grown hidden base root start (tip :: rest) session) (hHidden : hidden fresh = true)
    (hFresh : fresh ∉ tip :: rest) (grammar : Grammar) :
    Grown hidden base root start (fresh :: tip :: rest)
      (session.step grammar tip (.fork fresh)).session := by
  obtain ⟨cursor, hCursor, hDepth, hTraced, hPosition⟩ :=
    hGrown.stands tip rest (List.suffix_refl _)
  have hOrderly := hGrown.orderly.step grammar tip (.fork fresh)
  have hStep : (session.step grammar tip (.fork fresh)).session =
      session.insert fresh cursor.fork := by
    rw [Session.step, hCursor]
    rfl
  rw [hStep] at hOrderly ⊢
  have hOthers (other : String) (hOther : other ≠ fresh) :
      (session.insert fresh cursor.fork).cursor? other = session.cursor? other := by
    rw [cursor?_insert, if_neg hOther]
  refine ⟨hOrderly, hGrown.draws, ?_, ?_, ?_, ?_, ?_, ?_⟩
  · intro other hOther hNe
    rw [hOthers other (by rintro rfl; simp [hHidden] at hOther), hGrown.cursor?_eq other hOther hNe]
  · intro other found hOther hFound
    have hNe : other ≠ fresh := by
      rintro rfl
      simp [offside] at hOther
    rw [hOthers other hNe] at hFound
    exact hGrown.below other found (by simp_all [offside]) hFound
  · intro other hMem hNe
    rcases List.mem_cons.1 hMem with rfl | hMem
    · exact hHidden
    · exact hGrown.hidden_of_ne other hMem hNe
  · exact List.nodup_cons.2 ⟨hFresh, hGrown.nodup⟩
  · exact hGrown.root_last.trans (List.suffix_cons _ _)
  · intro other below hSuffix
    rcases List.suffix_cons_iff.1 hSuffix with hSame | hBelow
    · obtain ⟨rfl, rfl⟩ := List.cons.inj hSame
      rw [cursor?_insert, if_pos rfl]
      exact ⟨cursor.fork, rfl, congrArg (· + 1) hDepth, hTraced, hPosition⟩
    · have hMem : other ∈ tip :: rest := hBelow.subset List.mem_cons_self
      rw [hOthers other (by rintro rfl; exact hFresh hMem)]
      exact hGrown.stands other below hBelow

end Grown

theorem Speculates.grown {grammar : Grammar} {hidden : String → Bool} {base session : Session}
    {root : String} {start : Cursor} {chain : List String}
    (hSpeculates : Speculates grammar hidden root base chain session) (hOrderly : base.Orderly)
    (hFresh : ∀ name, hidden name = true → base.cursor? name = none)
    (hStart : base.cursor? root = some start) (hRoot : start.depth = 0) :
    Grown hidden base root start chain session := by
  induction hSpeculates with
  | start => exact .refl hOrderly hFresh hStart hRoot
  | fork _ hHidden hNew ih => exact ih.fork hHidden hNew grammar
  | read _ hName hReads ih =>
    exact ih.strides hName (strides_of_reads ih.orderly grammar hReads _)
      (ih.orderly.step grammar _ _)
  | miss _ hName hMiss ih =>
    exact ih.strides hName (strides_of_miss ih.orderly grammar hMiss) (ih.orderly.step grammar _ _)
  | aside _ hApart ih =>
    exact ih.beside (step_apart ih.orderly ih.below grammar hApart) (ih.orderly.step grammar _ _)

/-- A commit to the cursor one generation above. -/
theorem step_commit {session : Session} {child parent : String} {fork cursor : Cursor}
    (hFork : session.cursor? child = some fork) (hCursor : session.cursor? parent = some cursor)
    (hNe : parent ≠ child) (hDepth : fork.depth = cursor.depth + 1)
    (hStart : session.window.start ≤ fork.position) (grammar : Grammar) :
    session.step grammar child (.commit parent) =
      { answer := .ok .nothing
        subject := some parent
        session := Session.insert
          { session.remove child with
            window := if cursor.depth = 0 then
              session.window.discard (fork.position - session.window.start) else session.window }
          parent { cursor with position := fork.position } } := by
  have hRemoved : (session.remove child).cursor? parent = some cursor := by
    rw [cursor?_remove, if_neg hNe, hCursor]
  have hCommit := commit_eq fork { window := session.window, cursor }
  rw [if_pos hDepth] at hCommit
  rw [Session.step, hFork]
  dsimp only [perform]
  rw [hRemoved]
  by_cases hRoot : cursor.depth = 0
  · rw [if_neg (not_not_intro hRoot), if_pos hStart] at hCommit
    rw [if_pos hRoot]
    exact (session.remove child).run_of_ok hCommit _
  · rw [if_pos hRoot] at hCommit
    rw [if_neg hRoot]
    exact (session.remove child).run_of_ok hCommit _

/-- A root that has advanced to this place from where it was in `base`, and has discarded what lies
before it; nothing else has happened that is not hidden. -/
structure Landed (hidden : String → Bool) (base : Session) (root : String) (start : Cursor)
    (place : Nat) (session : Session) : Prop where
  orderly : session.Orderly
  discards : ∃ drawn, base.window.Draws drawn ∧ place ≤ drawn.start + drawn.length ∧
    session.window = drawn.discard (place - base.window.start)
  cursor?_root : session.cursor? root = some { start with position := place }
  cursor?_eq : ∀ name, hidden name = false → name ≠ root →
    session.cursor? name = base.cursor? name

namespace Landed

variable {hidden : String → Bool} {base session first second : Session} {root : String}
  {start : Cursor} {place : Nat}

theorem start_eq (hLanded : Landed hidden base root start place session)
    (hStart : base.window.start ≤ place) : session.window.start = place := by
  obtain ⟨drawn, hDraws, hDelivered, hWindow⟩ := hLanded.discards
  have hSame : drawn.start = base.window.start := hDraws.start_eq
  rw [hWindow, Window.start_discard]
  omega

/-- However it came about, it is the same to all that comes after. -/
theorem kin (hFirst : Landed hidden base root start place first)
    (hSecond : Landed hidden base root start place second) : Kin hidden first second where
  alike := by
    obtain ⟨drawn, hDraws, hDelivered, hWindow⟩ := hFirst.discards
    obtain ⟨drawn', hDraws', hDelivered', hWindow'⟩ := hSecond.discards
    have hSame : drawn.start = base.window.start := hDraws.start_eq
    have hSame' : drawn'.start = base.window.start := hDraws'.start_eq
    rw [hWindow, hWindow']
    exact ((Window.Alike.refl _).draws hDraws hDraws').discard (by omega) (by omega)
  orderly := hFirst.orderly
  orderly' := hSecond.orderly
  cursor?_eq name hName := by
    by_cases hRoot : name = root
    · rw [hRoot, hFirst.cursor?_root, hSecond.cursor?_root]
    · rw [hFirst.cursor?_eq name hName hRoot, hSecond.cursor?_eq name hName hRoot]

end Landed

namespace Grown

variable {hidden : String → Bool} {base session : Session} {root child parent : String}
  {start fork : Cursor} {rest : List String}

/-- The last cursor but one, with the last one committed to it. -/
theorem exists_commit (hGrown : Grown hidden base root start (child :: parent :: rest) session)
    (hFork : session.cursor? child = some fork) (hStart : base.window.start ≤ start.position)
    (grammar : Grammar) :
    start.position ≤ fork.position ∧ fork.position ≤ session.window.start + session.window.length ∧
      ∃ cursor : Cursor, cursor.depth = rest.length ∧ cursor.traced = start.traced ∧
        session.step grammar child (.commit parent) =
          { answer := .ok .nothing
            subject := some parent
            session := Session.insert
              { session.remove child with
                window := if rest.length = 0 then
                  session.window.discard (fork.position - base.window.start) else session.window }
              parent { cursor with position := fork.position } } := by
  obtain ⟨other, hOther, hForkDepth, -, hPosition⟩ :=
    hGrown.stands child (parent :: rest) (List.suffix_refl _)
  obtain rfl := Option.some.inj (hFork.symm.trans hOther)
  obtain ⟨cursor, hCursor, hDepth, hTraced, -⟩ := hGrown.stands parent rest (List.suffix_cons _ _)
  have hSame : session.window.start = base.window.start := hGrown.draws.start_eq
  have hNe : parent ≠ child := by
    rintro rfl
    exact (List.nodup_cons.1 hGrown.nodup).1 List.mem_cons_self
  refine ⟨hPosition, hGrown.orderly.within child fork hFork, cursor, hDepth, hTraced, ?_⟩
  rw [step_commit hFork hCursor hNe (by rw [hForkDepth, hDepth]; rfl) (by omega), hDepth, hSame]

/-- The root stands at the end of the chain, and nowhere else. -/
theorem ne_root {chain : List String} {name : String}
    (hGrown : Grown hidden base root start chain session) (hSuffix : name :: rest <:+ chain)
    (hRest : rest ≠ []) : name ≠ root := by
  have hLast : [root] <:+ name :: rest := by
    apply List.suffix_of_suffix_length_le hGrown.root_last hSuffix
    simp
  have hMem : root ∈ rest := by
    rcases List.suffix_cons_iff.1 hLast with hSame | hLast
    · exact absurd (List.cons.inj hSame).2.symm hRest
    · exact hLast.subset List.mem_cons_self
  rintro rfl
  exact (List.nodup_cons.1 (hGrown.nodup.sublist hSuffix.sublist)).1 hMem

/-- Above the root the chain is one cursor shorter after a commit, and nothing is discarded. -/
theorem commit (hGrown : Grown hidden base root start (child :: parent :: rest) session)
    (hFork : session.cursor? child = some fork) (hStart : base.window.start ≤ start.position)
    (hRest : rest ≠ []) (grammar : Grammar) :
    let turn := session.step grammar child (.commit parent)
    Grown hidden base root start (parent :: rest) turn.session ∧
      ∃ cursor, turn.session.cursor? parent = some cursor ∧ cursor.position = fork.position := by
  intro turn
  obtain ⟨hPosition, hDelivered, cursor, hDepth, hTraced, hStep⟩ :=
    hGrown.exists_commit hFork hStart grammar
  have hOrderly : turn.session.Orderly := hGrown.orderly.step grammar _ _
  have hRoot : rest.length ≠ 0 := mt List.length_eq_zero_iff.1 hRest
  rw [if_neg hRoot] at hStep
  have hCursors (other : String) : turn.session.cursor? other =
      if other = parent then some { cursor with position := fork.position }
      else if other = child then none else session.cursor? other := by
    simp only [turn, hStep]
    rw [cursor?_insert]
    split
    · rfl
    · exact session.cursor?_remove child other
  have hWindow : turn.session.window = session.window := by
    simp only [turn, hStep]
    rfl
  have hNodup := List.nodup_cons.1 hGrown.nodup
  have hChild : hidden child = true := hGrown.hidden_of_ne child List.mem_cons_self
    (hGrown.ne_root (List.suffix_refl _) (List.cons_ne_nil _ _))
  have hParent : hidden parent = true := hGrown.hidden_of_ne parent
    (List.mem_cons_of_mem _ List.mem_cons_self) (hGrown.ne_root (List.suffix_cons _ _) hRest)
  refine ⟨⟨hOrderly, hWindow ▸ hGrown.draws, ?_, ?_, ?_, hNodup.2, ?_, ?_⟩, _,
    (hCursors parent).trans (if_pos rfl), rfl⟩
  · intro other hOther hNe
    rw [hCursors, if_neg (by rintro rfl; simp [hParent] at hOther),
      if_neg (by rintro rfl; simp [hChild] at hOther)]
    exact hGrown.cursor?_eq other hOther hNe
  · intro other found hOther hFound
    have hNe : other ≠ parent := by
      rintro rfl
      simp [offside] at hOther
    rw [hCursors, if_neg hNe] at hFound
    split at hFound
    · cases hFound
    · next hNe =>
      exact hGrown.below other found (by simp_all [offside]) hFound
  · exact fun other hMem => hGrown.hidden_of_ne other (List.mem_cons_of_mem _ hMem)
  · apply List.suffix_of_suffix_length_le hGrown.root_last (List.suffix_cons _ _)
    simp
  · intro other below hSuffix
    rcases List.suffix_cons_iff.1 hSuffix with hSame | hBelow
    · obtain ⟨rfl, rfl⟩ := List.cons.inj hSame
      rw [hCursors, if_pos rfl]
      exact ⟨_, rfl, hDepth, hTraced, hPosition⟩
    · have hMem : other ∈ rest := hBelow.subset List.mem_cons_self
      have hParent : other ≠ parent := by
        rintro rfl
        exact (List.nodup_cons.1 hNodup.2).1 hMem
      have hChild : other ≠ child := by
        rintro rfl
        exact hNodup.1 (List.mem_cons_of_mem _ hMem)
      rw [hCursors, if_neg hParent, if_neg hChild]
      exact hGrown.stands other below
        (hBelow.trans ((List.suffix_cons _ _).trans (List.suffix_cons _ _)))

/-- The last commit is one to the root, and lands it. -/
theorem land (hGrown : Grown hidden base root start [child, parent] session)
    (hFork : session.cursor? child = some fork) (hStart : base.window.start ≤ start.position)
    (hRoot : start.depth = 0) (grammar : Grammar) :
    Landed hidden base root start fork.position
      (session.step grammar child (.commit parent)).session := by
  obtain ⟨hPosition, hDelivered, cursor, hDepth, hTraced, hStep⟩ :=
    hGrown.exists_commit hFork hStart grammar
  have hOrderly := hGrown.orderly.step grammar child (.commit parent)
  obtain rfl : parent = root := by
    have hLast := List.suffix_of_suffix_length_le hGrown.root_last (List.suffix_cons _ _)
      (Nat.le_refl _)
    simpa [List.suffix_cons_iff, eq_comm] using hLast
  have hCursor : { cursor with position := fork.position } =
      { start with position := fork.position } := by
    cases cursor
    cases start
    simp_all
  have hChild : hidden child = true := hGrown.hidden_of_ne child List.mem_cons_self
    (hGrown.ne_root (List.suffix_refl _) (List.cons_ne_nil _ _))
  rw [hStep, hCursor] at hOrderly ⊢
  refine ⟨hOrderly, ⟨session.window, hGrown.draws, hDelivered, rfl⟩, ?_, ?_⟩
  · rw [cursor?_insert, if_pos rfl]
  · intro other hOther hNe
    rw [cursor?_insert, if_neg hNe]
    refine (session.cursor?_remove child other).trans ?_
    rw [if_neg (by rintro rfl; simp [hChild] at hOther)]
    exact hGrown.cursor?_eq other hOther hNe

end Grown

section Advance

variable {base : Session} {root : String} {start : Cursor} {place : Nat}

/-- A cursor in the window advances to any place that the stream has. -/
theorem exists_advance (hOrderly : base.Orderly) (hCursor : base.cursor? root = some start)
    (hStart : base.window.start ≤ start.position) (hPlace : start.position ≤ place)
    (hThere : place ≤ base.window.start + base.window.ahead.length) (grammar : Grammar) :
    ∃ window, base.window.Draws window ∧
      (base.step grammar root (.advance (place - start.position))).session =
        Session.insert { base with window } root { start with position := place } := by
  obtain ⟨stream, hOver⟩ := base.window.exists_over
  have hLength : place ≤ stream.length := by
    have hEnd := hOver.start_le
    rw [← hOver.drop_start, List.length_drop] at hThere
    omega
  have hAdvance := (observes_advance (place - start.position)
    { window := base.window, cursor := start } stream hOver).and
      (draws_advance (place - start.position) { window := base.window, cursor := start })
  rw [Session.step, hCursor]
  dsimp only [perform]
  cases hRun : advance (place - start.position) { window := base.window, cursor := start } with
  | ok count last =>
    obtain ⟨⟨window, moved, rfl, -, -, hLook, -⟩, hDraws⟩ := hAdvance.of_ok hRun
    have hMoved : start.position + moved = place := by
      simp only [Except.ok.injEq, Prod.mk.injEq, List.length_take, List.length_drop] at hLook
      omega
    refine ⟨window, hDraws, ?_⟩
    rw [base.run_of_ok hRun]
    simp only [Reader.further, hMoved]
  | error halt last =>
    obtain ⟨⟨window, fault, -, -, -, hStale | hCases⟩, -⟩ := hAdvance.of_error hRun
    · exact absurd hStale.1 (Nat.not_lt.2 hStart)
    · rcases hCases.2 with hCalm | hLook
      · exact absurd hOrderly.calm hCalm
      · cases hLook

/-- A root that advances to a place which the stream has, and reclaims. -/
theorem landed_advance (hOrderly : base.Orderly) (hCursor : base.cursor? root = some start)
    (hRoot : start.depth = 0) (hStart : base.window.start ≤ start.position)
    (hPlace : start.position ≤ place)
    (hThere : place ≤ base.window.start + base.window.ahead.length) (hidden : String → Bool)
    (grammar : Grammar) :
    Landed hidden base root start place
      (base.after grammar [(root, .advance (place - start.position)), (root, .reclaim)]) := by
  obtain ⟨window, hDraws, hAdvance⟩ :=
    exists_advance hOrderly hCursor hStart hPlace hThere grammar
  have hMiddle := hOrderly.step grammar root (.advance (place - start.position))
  have hLast := hMiddle.step grammar root .reclaim
  have hSame : window.start = base.window.start := hDraws.start_eq
  rw [hAdvance] at hMiddle hLast
  have hFound : (Session.insert { base with window } root
      { start with position := place }).cursor? root = some { start with position := place } := by
    rw [cursor?_insert, if_pos rfl]
  have hReclaim := reclaim_eq { window, cursor := { start with position := place } }
  rw [if_pos hRoot, if_pos (hSame.trans_le (Nat.le_trans hStart hPlace))] at hReclaim
  have hStep : ((Session.insert { base with window } root
      { start with position := place }).step grammar root .reclaim).session =
        Session.insert
          { Session.insert { base with window } root { start with position := place } with
            window := window.discard (place - window.start) } root
          { start with position := place } := by
    rw [Session.step, hFound]
    dsimp only [perform]
    rw [Session.run_of_ok _ hReclaim]
  rw [after_cons, after_cons, hAdvance]
  rw [hStep] at hLast ⊢
  refine ⟨hLast, ⟨window, hDraws, hMiddle.within root _ hFound, ?_⟩, ?_, ?_⟩
  · rw [hSame]
    rfl
  · exact (cursor?_insert _ _ _ _).trans (if_pos rfl)
  · intro other _ hNe
    refine (cursor?_insert _ _ _ _).trans ((if_neg hNe).trans ?_)
    exact (cursor?_insert _ _ _ _).trans (if_neg hNe)

end Advance

theorem view?_insert (session : Session) (name : String) (cursor : Cursor) :
    (session.insert name cursor).view? name = some (.of session.window cursor) := by
  rw [view?, cursor?_insert, if_pos rfl]
  rfl

/-- A commit that has gone well and has taken its receiver to this place. -/
def Takes (place : Nat) (line : (String × Command) × Reply) : Prop :=
  ∃ into view, line.1.2 = .commit into ∧ line.2.answer = .ok .nothing ∧
    line.2.subject = some into ∧ line.2.view = some view ∧ view.cursor.position = place

theorem Grown.takes {hidden : String → Bool} {base session : Session} {root child parent : String}
    {start fork : Cursor} {rest : List String}
    (hGrown : Grown hidden base root start (child :: parent :: rest) session)
    (hFork : session.cursor? child = some fork) (hStart : base.window.start ≤ start.position)
    (grammar : Grammar) :
    Takes fork.position
      ((child, .commit parent), (session.step grammar child (.commit parent)).reply) := by
  obtain ⟨-, -, cursor, -, -, hStep⟩ := hGrown.exists_commit hFork hStart grammar
  rw [hStep]
  exact ⟨parent, _, rfl, rfl, rfl, view?_insert _ _ _, rfl⟩

/-- When a chain is taken back, every commit goes well and takes its receiver to where the last
cursor has stood; nothing is discarded until the last commit, which lands the root. -/
theorem Grown.commits {hidden : String → Bool} {base session : Session} {root child parent : String}
    {start fork : Cursor} {rest : List String}
    (hGrown : Grown hidden base root start (child :: parent :: rest) session)
    (hFork : session.cursor? child = some fork) (hStart : base.window.start ≤ start.position)
    (hRoot : start.depth = 0) (grammar : Grammar) :
    (∀ line ∈ session.transcript grammar (Command.commits (child :: parent :: rest)),
      Takes fork.position line) ∧
      (∀ count < rest.length + 1,
        (session.after grammar
          ((Command.commits (child :: parent :: rest)).take count)).window.start =
          base.window.start) ∧
      Landed hidden base root start fork.position
        (session.after grammar (Command.commits (child :: parent :: rest))) := by
  have hTakes := hGrown.takes hFork hStart grammar
  have hHere : session.window.start = base.window.start := hGrown.draws.start_eq
  induction rest generalizing session child parent fork with
  | nil =>
    refine ⟨?_, ?_, hGrown.land hFork hStart hRoot grammar⟩
    · intro line hLine
      rw [List.mem_singleton.1 hLine]
      exact hTakes
    · intro count hCount
      rw [Nat.lt_one_iff.1 hCount]
      exact hHere
  | cons next rest ih =>
    obtain ⟨hNext, cursor, hCursor, hPosition⟩ :=
      hGrown.commit hFork hStart (List.cons_ne_nil _ _) grammar
    obtain ⟨hLines, hStarts, hLanded⟩ :=
      ih hNext hCursor (hNext.takes hCursor hStart grammar) hNext.draws.start_eq
    rw [hPosition] at hLines hLanded
    refine ⟨?_, ?_, hLanded⟩
    · intro line hLine
      rcases List.mem_cons.1 hLine with rfl | hLine
      · exact hTakes
      · exact hLines line hLine
    · intro count hCount
      cases count with
      | zero => exact hHere
      | succ count => exact hStarts count (Nat.lt_of_succ_lt_succ hCount)

/-- A chain that is taken back lands its root, and so the root answers from then on as one that has
advanced there itself. -/
theorem Speculates.lands {grammar : Grammar} {hidden : String → Bool} {base session : Session}
    {root tip parent : String} {start : Cursor} {rest : List String}
    (hSpeculates : Speculates grammar hidden root base (tip :: parent :: rest) session)
    (hOrderly : base.Orderly) (hFresh : ∀ name, hidden name = true → base.cursor? name = none)
    (hCursor : base.cursor? root = some start) (hRoot : start.depth = 0)
    (hStart : base.window.start ≤ start.position) :
    ∃ fork, session.cursor? tip = some fork ∧
      (∀ line ∈ session.transcript grammar (Command.commits (tip :: parent :: rest)),
        Takes fork.position line) ∧
      (∀ count < rest.length + 1,
        (session.after grammar
          ((Command.commits (tip :: parent :: rest)).take count)).window.start =
          base.window.start) ∧
      Landed hidden base root start fork.position
        (session.after grammar (Command.commits (tip :: parent :: rest))) ∧
      Landed hidden base root start fork.position
        (base.after grammar [(root, .advance (fork.position - start.position)), (root, .reclaim)]) ∧
      base.window.start ≤ fork.position := by
  have hGrown := hSpeculates.grown hOrderly hFresh hCursor hRoot
  obtain ⟨fork, hFork, -, -, hPosition⟩ := hGrown.stands tip (parent :: rest) (List.suffix_refl _)
  obtain ⟨hLines, hStarts, hLanded⟩ := hGrown.commits hFork hStart hRoot grammar
  have hThere : fork.position ≤ base.window.start + base.window.ahead.length := by
    have hDelivered := hGrown.orderly.within tip fork hFork
    have hLength := session.window.length_le_length_ahead
    rw [hGrown.draws.ahead_eq] at hLength
    rw [hGrown.draws.start_eq] at hDelivered
    omega
  exact ⟨fork, hFork, hLines, hStarts, hLanded,
    landed_advance hOrderly hCursor hRoot hStart hPosition hThere hidden grammar,
    Nat.le_trans hStart hPosition⟩

/-- Speculation on forks over a source that does not fail, from any session that has come about,
with names for the forks that were not used before.

A chain of forks of any length may be taken back with a commit of each cursor to the one that it was
forked from, whatever was read ahead on them. No commit fails, each takes its receiver to where the
last cursor of the chain has stood, and the window begins where it did until the last commit, which
makes it begin where the root stands then. Whatever comes after is shown as if the root had advanced
there itself and reclaimed.

A chain that is not taken back, as when one of its cursors is abandoned, is seen by no other cursor,
nor is anything else that is done with forks none of which is committed to a cursor that stays: what
is shown at the others is shown without them too.

Matching with rules that go on without end shows nothing that could be compared. -/
theorem chains_land_or_vanish (grammar : Grammar) (config : Config) {source : Source}
    (hCalm : source.Calm) (first : String) (traced : Bool) (past : List (String × Command))
    {hidden : String → Bool}
    (hFresh : ∀ name, hidden name = true →
      ((start config source first traced).after grammar past).cursor? name = none) :
    let base := (start config source first traced).after grammar past
    (∀ root cursor, base.cursor? root = some cursor → cursor.depth = 0 →
      base.window.start ≤ cursor.position →
      ∀ tip parent rest session, base.Speculates grammar hidden root (tip :: parent :: rest) session →
      let commits := Command.commits (tip :: parent :: rest)
      let last := session.after grammar commits
      ∃ fork, session.cursor? tip = some fork ∧
        (∀ line ∈ session.transcript grammar commits, Takes fork.position line) ∧
        (∀ count < commits.length,
          (session.after grammar (commits.take count)).window.start = base.window.start) ∧
        last.window.start = fork.position ∧
        (∃ view, last.view? root = some view ∧ view.cursor = { cursor with position := fork.position } ∧
          view.offset = 0) ∧
        let direct := base.after grammar
          [(root, .advance (fork.position - cursor.position)), (root, .reclaim)]
        ∀ later, (∀ entry ∈ later, entry.2.plain hidden entry.1 = true) →
          (∀ line ∈ last.transcript grammar later ++ direct.transcript grammar later,
            ¬ line.2.CutOff) →
          last.transcript grammar later = direct.transcript grammar later) ∧
    ∀ history, (∀ entry ∈ history,
        entry.2.plain hidden entry.1 = true ∨ entry.2.Apart hidden entry.1) →
      (∀ line ∈ base.transcript grammar history ++ base.transcript grammar
        (history.filter fun entry => entry.2.plain hidden entry.1), ¬ line.2.CutOff) →
      (base.transcript grammar history).filter (fun line => line.1.2.plain hidden line.1.1) =
        base.transcript grammar (history.filter fun entry => entry.2.plain hidden entry.1) := by
  intro base
  have hOrderly : base.Orderly := (orderly_start config hCalm first traced).after grammar past
  constructor
  · intro root cursor hCursor hRoot hStart tip parent rest session hSpeculates commits last
    obtain ⟨fork, hFork, hLines, hStarts, hLanded, hDirect, hPlace⟩ :=
      hSpeculates.lands hOrderly hFresh hCursor hRoot hStart
    have hLength : commits.length = rest.length + 1 := Command.length_commits tip parent rest
    refine ⟨fork, hFork, hLines, hLength ▸ hStarts, hLanded.start_eq hPlace, ?_, ?_⟩
    · refine ⟨_, by rw [view?, hLanded.cursor?_root]; rfl, rfl, ?_⟩
      exact Nat.sub_eq_zero_of_le (hLanded.start_eq hPlace).ge
    · intro direct later hPlain hEnds
      exact (hLanded.kin hDirect).transcript_eq grammar hPlain
        (fun line hMem => hEnds line (List.mem_append_left _ hMem))
        (fun line hMem => hEnds line (List.mem_append_right _ hMem))
  · intro history hHistory hEnds
    have hBelow : base.Below hidden := by
      intro name cursor hName hCursor
      rw [hFresh name hName] at hCursor
      cases hCursor
    exact (Kin.refl hOrderly hidden).transcript_filter hBelow grammar hHistory
      (fun line hMem => hEnds line (List.mem_append_left _ hMem))
      (fun line hMem => hEnds line (List.mem_append_right _ hMem))

/-- A root that has read one letter, of a source that is interrupted. -/
def ashore : Session :=
  (start default ⟨[.data [97, 98], .failure .interrupted "", .data [99, 100, 101]]⟩ "root"
    true).after {} [("root", .read 1)]

/-- Three letters more are read ahead on two forks, with a match that is not found and a fork that
is given up. -/
def letters : List (String × Command) :=
  [("root", .fork "a"), ("a", .read 1), ("a", .parse (.primitive (.literal .absent [120]))),
    ("a", .fork "c"), ("c", .readChars 3), ("c", .abandon), ("a", .fork "b"), ("b", .readChars 2)]

theorem speculates_letters :
    ashore.Speculates {} (· != "root") "root" ["b", "a", "root"] (ashore.after {} letters) := by
  have hRead : ashore.Speculates {} (· != "root") "root" ["a", "root"]
      (ashore.after {} (letters.take 2)) := .read (.fork .start rfl (by decide)) (by decide) trivial
  have hNone : ((ashore.after {} (letters.take 2)).step {} "a"
      (.parse (.primitive (.literal .absent [120])))).answer = .ok (.result none) := by cbv
  have hMiss : ashore.Speculates {} (· != "root") "root" ["a", "root"]
      (ashore.after {} (letters.take 3)) :=
    .miss hRead (by decide) fun found hFound => by cases hNone.symm.trans hFound
  have hOffside : offside (· != "root") ["a", "root"] "c" = true := by decide
  have hAside : ashore.Speculates {} (· != "root") "root" ["a", "root"]
      (ashore.after {} (letters.take 6)) :=
    .aside (.aside (.aside hMiss hOffside) hOffside) hOffside
  exact .read (.fork hAside rfl (by decide)) (by decide) trivial

/-- The root goes on alone. -/
def sequel : List (String × Command) :=
  [("root", .peek 3), ("root", .isAtEnd)]

theorem not_cutOff_of_answers (lines : List ((String × Command) × Reply))
    (answers : List (Except Refusal Answer))
    (hAnswers : lines.map (fun line => line.2.answer) = answers)
    (hEnds : .error (.halted .exhausted) ∉ answers) : ∀ line ∈ lines, ¬ line.2.CutOff := by
  intro line hLine hCutOff
  apply hEnds
  rw [← hAnswers, ← hCutOff]
  exact List.mem_map_of_mem hLine

theorem chains_land_or_vanish_letters :
    ((ashore.after {} letters).after {} [("b", .commit "a"), ("a", .commit "root")]).window.start = 4 ∧
      ((ashore.after {} letters).after {} [("b", .commit "a"), ("a", .commit "root")]).transcript {}
          sequel =
        (ashore.after {} [("root", .advance 3), ("root", .reclaim)]).transcript {} sequel ∧
      (ashore.transcript {} (letters ++ ("a", .abandon) :: sequel)).filter
          (fun line => line.1.2.plain (· != "root") line.1.1) =
        ashore.transcript {} sequel := by
  have hCalm : Source.Calm ⟨[.data [97, 98], .failure .interrupted "", .data [99, 100, 101]]⟩ := by
    simp [Source.Calm]
  have hCursors (name : String) (hName : (name != "root") = true) : ashore.cursor? name = none := by
    have hRoot : ashore.cursors = [("root", ⟨1, 0, true⟩)] := by cbv
    rw [cursor?, hRoot, lookup_cons_eq_ite, if_neg (by simpa using hName)]
    rfl
  have hBoth := chains_land_or_vanish {} default hCalm "root" true [("root", .read 1)] hCursors
  have hRoot : ashore.cursor? "root" = some ⟨1, 0, true⟩ := by cbv
  have hStart : ashore.window.start ≤ 1 := by cbv
  obtain ⟨fork, hTip, -, -, hLast, -, hLater⟩ :=
    hBoth.1 "root" _ hRoot rfl hStart "b" "a" ["root"] _ speculates_letters
  obtain rfl : fork = ⟨4, 2, true⟩ := by
    have hFork : (ashore.after {} letters).cursor? "b" = some ⟨4, 2, true⟩ := by cbv
    exact Option.some.inj (hTip.symm.trans hFork)
  have hCommitted := not_cutOff_of_answers
    (((ashore.after {} letters).after {}
      [("b", .commit "a"), ("a", .commit "root")]).transcript {} sequel)
    [.ok (.bytes [101]), .ok (.flag false)] (by cbv) (by simp)
  have hAdvanced := not_cutOff_of_answers
    ((ashore.after {} [("root", .advance 3), ("root", .reclaim)]).transcript {} sequel)
    [.ok (.bytes [101]), .ok (.flag false)] (by cbv) (by simp)
  have hAbandoned := not_cutOff_of_answers
    (ashore.transcript {} (letters ++ ("a", .abandon) :: sequel))
    [.ok .nothing, .ok (.bytes [98]), .ok (.result none), .ok .nothing,
      .ok (.chars ['c', 'd', 'e']), .ok .nothing, .ok .nothing, .ok (.chars ['c', 'd']),
      .ok .nothing, .ok (.bytes [98, 99, 100]), .ok (.flag false)] (by cbv) (by simp)
  have hAlone := not_cutOff_of_answers (ashore.transcript {} sequel)
    [.ok (.bytes [98, 99, 100]), .ok (.flag false)] (by cbv) (by simp)
  have hSequel : (letters ++ ("a", .abandon) :: sequel).filter
      (fun entry => entry.2.plain (· != "root") entry.1) = sequel := rfl
  refine ⟨hLast, hLater sequel (by decide) ?_, ?_⟩
  · intro line hLine
    exact (List.mem_append.1 hLine).elim (hCommitted line) (hAdvanced line)
  · have hFilter := hBoth.2 (letters ++ ("a", .abandon) :: sequel) ?_ ?_
    · rw [hSequel] at hFilter
      exact hFilter
    · simp [letters, sequel, Command.plain, Command.Apart]
    · rw [hSequel]
      intro line hLine
      exact (List.mem_append.1 hLine).elim (hAbandoned line) (hAlone line)

end Session

end StreamMatch
