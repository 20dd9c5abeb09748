import StreamMatch.Contact

namespace StreamMatch

/-- All that a stream delivers until it delivers nothing. -/
def readAll (stream : IO.FS.Stream) : IO ByteArray := do
  let mut bytes := ByteArray.empty
  repeat
    let more ← stream.read 4096
    if more.isEmpty then break
    bytes := bytes ++ more
  return bytes

end StreamMatch

/-- Recognizes the contact information in the first argument, or in standard input if there is
none. -/
def main (arguments : List String) : IO UInt32 := do
  let bytes ←
    match arguments with
    | text :: _ => pure text.toUTF8
    | [] => StreamMatch.readAll (← IO.getStdin)
  let verdict := StreamMatch.Contact.recognize ⟨[.data bytes.toList]⟩
  IO.print verdict.output
  return verdict.exitCode.toUInt32
