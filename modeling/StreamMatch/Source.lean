/-!
A byte source as the list of what its next reads deliver. A source goes forward only: what a read
has delivered is gone from it.
-/

namespace StreamMatch

/-- Why a read failed. -/
inductive IoKind where
  | connectionReset
  | brokenPipe
  | wouldBlock
  | unexpectedEof
  | interrupted
  | other
deriving DecidableEq, Repr

/-- One thing that a source has in line: bytes to deliver, or a failure to report. -/
inductive Piece where
  | data (bytes : List UInt8)
  | failure (kind : IoKind) (message : String)
deriving DecidableEq, Repr

/-- A forward-only byte source. -/
structure Source where
  pieces : List Piece
deriving DecidableEq, Repr

/-- What one read returns. No bytes at all is how a source says that it has ended. -/
inductive Delivery where
  | bytes (delivered : List UInt8)
  | failed (kind : IoKind) (message : String)
deriving DecidableEq, Repr

namespace Source

/-- One read of at most `limit` bytes. It takes from the first piece only, and what is left of
that piece stays first in line. A failure is reported once and then gone. -/
def read (source : Source) (limit : Nat) : Delivery × Source :=
  match source.pieces with
  | [] => (.bytes [], ⟨[]⟩)
  | .failure kind message :: rest => (.failed kind message, ⟨rest⟩)
  | .data bytes :: rest =>
    match bytes.drop limit with
    | [] => (.bytes bytes, ⟨rest⟩)
    | left => (.bytes (bytes.take limit), ⟨.data left :: rest⟩)

/-- What a read of at most `limit` bytes comes to: the end, a failure, all of the first piece, or as
much of that as was asked for. -/
inductive Delivers (limit : Nat) : Source → Delivery → Source → Prop where
  | ended : Delivers limit ⟨[]⟩ (.bytes []) ⟨[]⟩
  | failed (kind : IoKind) (message : String) (more : List Piece) :
    Delivers limit ⟨.failure kind message :: more⟩ (.failed kind message) ⟨more⟩
  | whole (bytes : List UInt8) (more : List Piece) (length_le : bytes.length ≤ limit) :
    Delivers limit ⟨.data bytes :: more⟩ (.bytes bytes) ⟨more⟩
  | part (taken left : List UInt8) (more : List Piece) (length_eq : taken.length = limit)
    (left_ne : left ≠ []) :
    Delivers limit ⟨.data (taken ++ left) :: more⟩ (.bytes taken) ⟨.data left :: more⟩

variable {source rest : Source} {limit : Nat} {delivery : Delivery}

theorem delivers_of_read (hRead : source.read limit = (delivery, rest)) :
    Delivers limit source delivery rest := by
  obtain ⟨pieces⟩ := source
  cases pieces with
  | nil =>
    cases hRead
    exact .ended
  | cons piece more =>
    cases piece with
    | failure kind message =>
      cases hRead
      exact .failed kind message more
    | data bytes =>
      simp only [read] at hRead
      split at hRead
      · next hDrop =>
        cases hRead
        exact .whole bytes more (List.drop_eq_nil_iff.1 hDrop)
      · next hDrop =>
        cases hRead
        have hLess : limit < bytes.length := Nat.lt_of_not_le (mt List.drop_eq_nil_iff.2 hDrop)
        have hPart := Delivers.part (bytes.take limit) (bytes.drop limit) more
          (List.length_take_of_le (Nat.le_of_lt hLess)) hDrop
        rwa [List.take_append_drop] at hPart

theorem Delivers.read_eq (hDelivers : Delivers limit source delivery rest) :
    source.read limit = (delivery, rest) := by
  cases hDelivers with
  | ended => rfl
  | failed kind message more => rfl
  | whole bytes more hLength => simp only [read, List.drop_eq_nil_iff.2 hLength]
  | part taken left more hLength hLeft =>
    cases left with
    | nil => exact absurd rfl hLeft
    | cons byte left => simp only [read, List.drop_left' hLength, List.take_left' hLength]

/-- The number of reads that these pieces are good for, were each to deliver one byte. -/
def readsOf : List Piece → Nat
  | [] => 0
  | .data bytes :: rest => bytes.length + 1 + readsOf rest
  | .failure _ _ :: rest => 1 + readsOf rest

/-- The number of reads that could still deliver something. -/
def size (source : Source) : Nat :=
  readsOf source.pieces

/-- A read that delivers bytes or fails leaves less in line. -/
theorem size_read_lt (hLimit : 0 < limit) (hRead : source.read limit = (delivery, rest))
    (hDelivery : delivery ≠ .bytes []) : rest.size < source.size := by
  cases delivers_of_read hRead with
  | ended => exact absurd rfl hDelivery
  | failed kind message more =>
    simp only [size, readsOf]
    omega
  | whole bytes more hLength =>
    simp only [size, readsOf]
    omega
  | part taken left more hLength hLeft =>
    simp only [size, readsOf, List.length_append]
    omega

end Source

end StreamMatch
