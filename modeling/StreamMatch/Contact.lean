import StreamMatch.Matcher.Basic
import StreamMatch.Regex.Engine

/-!
Recognizes an e-mail address or a North American telephone number at the start of its input, and
prints what was recognized as a tree.
-/

namespace StreamMatch.Contact

/-- The tags of the grammar, with their names. -/
structure Symbols where
  dotAtom : Tag
  emailAddress : Tag
  areaCode : Tag
  localCode : Tag
  personalCode : Tag
  phoneNumber : Tag
  extension : Tag

/-- Hands out the tags of the grammar. -/
def symbols : Symbols × TagRegistry :=
  let registry : TagRegistry := {}
  let (dotAtom, registry) := registry.freshNamed "DotAtom"
  let (emailAddress, registry) := registry.freshNamed "EmailAddress"
  let (areaCode, registry) := registry.freshNamed "AreaCode"
  let (localCode, registry) := registry.freshNamed "LocalCode"
  let (personalCode, registry) := registry.freshNamed "PersonalCode"
  let (phoneNumber, registry) := registry.freshNamed "PhoneNumber"
  let (extension, registry) := registry.freshNamed "Extension"
  ({ dotAtom, emailAddress, areaCode, localCode, personalCode, phoneNumber, extension }, registry)

/-- One byte that satisfies a predicate. -/
def oneByte (accepts : Predicate UInt8) : Matcher :=
  .primitive (.bytes (.one .literal accepts))

/-- The bytes of an ASCII text. -/
def asciiBytes (text : String) : List UInt8 :=
  text.toList.map fun c => c.toNat.toUInt8

/-- One of the bytes of an ASCII text. -/
def oneOf (text : String) : Matcher :=
  oneByte (.inSet (asciiBytes text))

/-- That number of digits. -/
def digits (tag : Tag) (count : Nat) : Matcher :=
  .primitive (.bytes (.between tag count count .asciiDigit))

/-- A character that may stand in the words of an address. -/
def atomCharacter : Matcher :=
  .first [oneByte .asciiAlpha, oneByte .asciiDigit, oneOf "!#$%&'*+-/=?^_\x60\x7b|\x7d~"]

/-- Words with dots between them. -/
def dotAtom (symbols : Symbols) : Matcher :=
  .separated symbols.dotAtom 1 (.atLeast .literal 1 atomCharacter) (oneOf ".")

/-- An e-mail address. -/
def emailAddress (symbols : Symbols) : Matcher :=
  .named symbols.emailAddress
    [("local", dotAtom symbols), ("", oneOf "@"), ("domain", dotAtom symbols)]

/-- A telephone number, where `extension` is what may follow it. -/
def phoneNumber (symbols : Symbols) (extension : Pattern) : Matcher :=
  .seq symbols.phoneNumber
    [digits symbols.areaCode 3, .optional (oneOf "-"), digits symbols.localCode 3,
      .optional (oneOf "-"), digits symbols.personalCode 4,
      .optional (.primitive (.pattern extension))]

/-- The extension of a telephone number. -/
def extension (library : Regex.Library) (symbols : Symbols) : Except library.Defect Pattern :=
  Pattern.compile library symbols.extension "\\s*(x|ext\\.?)\\s*[0-9]\x7b1,5\x7d".toList 16

/-- A telephone number or an e-mail address, whichever is longer. -/
def contact (symbols : Symbols) (extension : Pattern) : Matcher :=
  .longest [phoneNumber symbols extension, emailAddress symbols]

mutual

/-- The lines of a tree: a node's tag and text, with the names of its parts if it has any, and below
it its submatches, further in. -/
def lines (registry : TagRegistry) (depth : Nat) : Match → List String
  | ⟨tag, _, content, submatches, names⟩ =>
    let indent := String.ofList (List.replicate (2 * depth) ' ')
    let node := indent ++ registry.render tag ++ " " ++ quoted (Utf8.lossy content)
    let groups :=
      if names.isEmpty then ""
      else " groups=[" ++ ", ".intercalate (names.map fun (name, _) => quoted name.toList) ++ "]"
    (node ++ groups) :: linesOfAll registry (depth + 1) submatches

/-- The lines of several trees. -/
def linesOfAll (registry : TagRegistry) (depth : Nat) : List Match → List String
  | [] => []
  | m :: rest => lines registry depth m ++ linesOfAll registry depth rest

end

/-- What a run of the recognizer leaves: its exit code and what it prints. -/
structure Verdict where
  exitCode : UInt8
  output : String
deriving DecidableEq, Repr

/-- A verdict whose output is these lines. -/
def Verdict.ofLines (exitCode : UInt8) (lines : List String) : Verdict :=
  ⟨exitCode, String.join (lines.map (· ++ "\n"))⟩

/-- Recognizes what is at the start of a source. A fault leaves an exit code and no output. -/
def recognizeWith (library : Regex.Library) (source : Source) : Verdict :=
  let (symbols, registry) := symbols
  match extension library symbols with
  | .error _ => .ofLines 1 []
  | .ok extension =>
    let parse : Reading (Option Match × Location) := do
      let result ← Grammar.parse {} (contact symbols extension)
      return (result, ← Reading.location)
    match parse { window := .ofSource source, cursor := { position := 0, traced := true } } with
    | .ok (some m, location) _ =>
      .ofLines 0 (lines registry 0 m ++
        ["matched " ++ toString m.length ++ " bytes, stopped at " ++ location.render])
    | .ok (none, _) _ => .ofLines 1 ["no contact information found"]
    | .error _ _ => .ofLines 1 []

/-- Recognizes what is at the start of a source, with patterns that the engine runs. -/
def recognize (source : Source) : Verdict :=
  recognizeWith Regex.engine source

end StreamMatch.Contact
