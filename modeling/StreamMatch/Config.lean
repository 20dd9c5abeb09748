namespace StreamMatch

/-- How malformed UTF-8 is treated when code points are decoded. -/
inductive DecodePolicy where
  /-- Each malformed byte decodes to U+FFFD. -/
  | lenient
  /-- Malformed and truncated sequences are faults. -/
  | strict
deriving DecidableEq, Repr

/-- A policy in a debug view. -/
def DecodePolicy.debug : DecodePolicy → String
  | .lenient => "Lenient"
  | .strict => "Strict"

/-- How a window reads its source. The capacity is a hint for the first allocation and has no
other effect. -/
structure Config where
  chunkSize : Nat := 4096
  capacity : Nat := 4096
  policy : DecodePolicy := .lenient
  chunkSize_pos : 0 < chunkSize := by omega
deriving DecidableEq, Repr

namespace Config

/-- Asks the source for `size` bytes per read; a size of zero is raised to one. -/
def withChunkSize (config : Config) (size : Nat) : Config :=
  { config with chunkSize := max size 1, chunkSize_pos := by omega }

/-- A configuration in a debug view. -/
def debug (config : Config) : String :=
  "BufferConfig \x7b chunk_size: " ++ toString config.chunkSize ++ ", initial_capacity: " ++
    toString config.capacity ++ ", decode: " ++ config.policy.debug ++ " \x7d"

end Config

instance : Inhabited Config := ⟨{}⟩

end StreamMatch
