import Mathlib
import StreamMatch.Proofs.Regex.Conformance
import StreamMatch.Proofs.Scanning

/-!
What a pattern matches, with its text in a group behind the assertion that the input begins there.
Whatever the library of regular expressions, as long as it treats groups and the assertion as it
should: if the text is an expression on its own, and does not end in a comment, then the parenthesis
behind it closes the group, and the pattern matches what the expression matches at the cursor
(`Pattern.compile_anchors`). A text that closes the group itself can get out of it
(`Pattern.not_forall_compiles_iff`).
-/

namespace StreamMatch

namespace Regex

/-- What an expression matches in front of the bytes: its preferred leftmost match, if that begins
there. -/
def front? (regex : Regex) (bytes : List UInt8) : Option Nat :=
  ((regex.find bytes).filter (·.1 = 0)).map (·.2)

namespace Library

variable {library : Library} {text : List Char}

theorem compile_eq_ok {regex : Regex} : library.compile text = .ok regex ↔
    ∃ expr, library.parse text = .ok expr ∧ library.withinLimits expr ∧
      regex = library.build expr := by
  rw [compile]
  cases library.parse text with
  | error defect => simp [bind, Except.bind]
  | ok expr =>
    cases hLimits : library.withinLimits expr with
    | false => simp [bind, Except.bind, hLimits]
    | true => simp [bind, Except.bind, pure, Except.pure, hLimits, eq_comm (a := regex)]

/-- A text that closes no parenthesis which it has not opened: if it is an expression behind `^` and
in a group, then it is one on its own, does not end in a comment, and matches on its own what it
matches there, as far as this is in front of the bytes. -/
theorem Documented.exists_of_parse_anchored (hLibrary : library.Documented)
    (hOpened : library.parse text ≠ .error library.unopenedGroup) {behind : library.Expr}
    (hBehind : library.parse (Pattern.anchored text) = .ok behind) :
    ∃ expr, library.parse text = .ok expr ∧ ¬ library.EndsInComment text ∧
      ∀ bytes, (library.build behind).find bytes =
        ((library.build expr).find bytes).filter (·.1 = 0) := by
  cases hText : library.parse text with
  | error defect =>
    rw [hText] at hOpened
    obtain ⟨defect', hRefused⟩ := hLibrary.refused hText fun hDefect => hOpened (hDefect ▸ rfl)
    cases hRefused.symm.trans hBehind
  | ok expr =>
    by_cases hOpen : library.EndsInComment text
    · obtain ⟨defect, hRefused⟩ := hLibrary.unclosed hText hOpen
      cases hRefused.symm.trans hBehind
    · obtain ⟨group, hGroup, hSame⟩ := hLibrary.group hText hOpen
      obtain ⟨behind', hBehind', hFind⟩ := hLibrary.start hText hGroup
      cases hBehind'.symm.trans hBehind
      exact ⟨expr, rfl, hOpen, fun bytes => by rw [hFind, hSame]⟩

/-- An expression that does not end in a comment is one behind `^` and in a group too. -/
theorem Documented.exists_parse_anchored (hLibrary : library.Documented) {expr : library.Expr}
    (hText : library.parse text = .ok expr) (hClosed : ¬ library.EndsInComment text) :
    ∃ behind, library.parse (Pattern.anchored text) = .ok behind := by
  obtain ⟨group, hGroup, -⟩ := hLibrary.group hText hClosed
  obtain ⟨behind, hBehind, -⟩ := hLibrary.start hText hGroup
  exact ⟨behind, hBehind⟩

end Library

end Regex

namespace Pattern

open Regex

variable {library : Regex.Library} {tag : Tag} {text : List Char} {window : Nat}

theorem compile_eq_ok {pattern : Pattern} : Pattern.compile library tag text window = .ok pattern ↔
    ∃ regex, library.compile (anchored text) = .ok regex ∧
      pattern = ⟨tag, text, window, regex⟩ := by
  rw [Pattern.compile]
  cases library.compile (anchored text) with
  | error defect => simp [bind, Except.bind]
  | ok regex => simp [bind, Except.bind, pure, Except.pure, eq_comm]

/-- Wherever the pattern is tried it matches what the expression matches there, in what is seen of
the input from the cursor on, and nothing else. It faults only at a cursor that the window has left
behind or by a read that fails. -/
def Anchors (pattern : Pattern) (regex : Regex) : Prop :=
  ∀ reader stream, reader.window.Over stream →
    let seen := (stream.drop reader.cursor.position).take pattern.window
    Leads (Primitive.pattern pattern).attempt reader
      (fun found after =>
        found = (regex.front? seen).map
          (fun length => Match.leaf pattern.tag (seen.take length) reader.cursor.position) ∧
        after.cursor = { reader.cursor with
          position := reader.cursor.position + (regex.front? seen).getD 0 })
      (fun halt _ => ∃ fault, halt = .fault fault ∧
        (reader.cursor.position < reader.window.start ∨ ¬ reader.window.source.Calm))

theorem anchors_of_matchLength? {pattern : Pattern} {regex : Regex}
    (hMatch : ∀ bytes, pattern.matchLength? bytes = regex.front? bytes) : pattern.Anchors regex := by
  intro reader stream hOver seen
  apply (Primitive.leads_attempt (.pattern pattern) hOver).mono
  · intro found after hFound
    obtain ⟨content?, hContent, hFound, hCursor, -⟩ := hFound
    have hSeen : content? = (regex.front? seen).map (stream.drop reader.cursor.position).take := by
      rw [← hMatch]
      exact (Except.ok.inj hContent).symm
    cases hLength : regex.front? seen with
    | none =>
      rw [hLength] at hSeen
      cases hSeen
      exact ⟨hFound, hCursor⟩
    | some length =>
      rw [hLength] at hSeen
      cases hSeen
      have hWithin := le_length_of_matchLength? ((hMatch seen).trans hLength)
      rw [List.length_take] at hWithin
      have hTake : seen.take length = (stream.drop reader.cursor.position).take length := by
        rw [List.take_take, Nat.min_eq_left (by omega)]
      have hCount : ((stream.drop reader.cursor.position).take length).length = length := by
        rw [List.length_take]
        omega
      have hLeaf : found = some (.leaf pattern.tag
          ((stream.drop reader.cursor.position).take length) reader.cursor.position) := hFound
      have hMoved : after.cursor = { reader.cursor with position := reader.cursor.position +
          ((stream.drop reader.cursor.position).take length).length } := hCursor
      rw [hLeaf, hMoved, hCount, ← hTake]
      exact ⟨rfl, rfl⟩
  · intro halt after hHalts
    obtain ⟨fault, hFault, hStale | hCalm | hRefused⟩ := hHalts
    · exact ⟨fault, hFault, .inl hStale⟩
    · exact ⟨fault, hFault, .inr hCalm⟩
    · cases hRefused

/-- A pattern whose text is an expression of its own compiles, and matches what that matches at the
cursor, unless the text ends in a comment or is too large with what is put around it. Where the text
is none, the pattern does not compile, unless there is a parenthesis in it that nothing opens. -/
theorem compile_anchors (hLibrary : library.Documented) (tag : Tag) (text : List Char) (window : Nat)
    (hOpened : library.parse text ≠ .error library.unopenedGroup) :
    ((∃ pattern, Pattern.compile library tag text window = .ok pattern) ↔
      ∃ expr, library.parse text = .ok expr ∧ ¬ library.EndsInComment text ∧
        ∀ behind, library.parse (anchored text) = .ok behind → library.withinLimits behind) ∧
    ∀ pattern, Pattern.compile library tag text window = .ok pattern →
      pattern.tag = tag ∧ pattern.window = window ∧
        ∃ expr, library.parse text = .ok expr ∧ pattern.Anchors (library.build expr) := by
  simp only [compile_eq_ok, Regex.Library.compile_eq_ok]
  constructor
  · constructor
    · intro hCompiles
      obtain ⟨pattern, regex, ⟨behind, hBehind, hLimits, -⟩, -⟩ := hCompiles
      obtain ⟨expr, hText, hClosed, -⟩ := hLibrary.exists_of_parse_anchored hOpened hBehind
      refine ⟨expr, hText, hClosed, fun behind' hBehind' => ?_⟩
      cases hBehind.symm.trans hBehind'
      exact hLimits
    · intro hExpression
      obtain ⟨expr, hText, hClosed, hLimits⟩ := hExpression
      obtain ⟨behind, hBehind⟩ := hLibrary.exists_parse_anchored hText hClosed
      exact ⟨_, _, ⟨behind, hBehind, hLimits behind hBehind, rfl⟩, rfl⟩
  · intro pattern hPattern
    obtain ⟨regex, ⟨behind, hBehind, -, rfl⟩, rfl⟩ := hPattern
    obtain ⟨expr, hText, -, hFind⟩ := hLibrary.exists_of_parse_anchored hOpened hBehind
    refine ⟨rfl, rfl, expr, hText, anchors_of_matchLength? fun bytes => ?_⟩
    rw [matchLength?, hFind, front?]

/-- The text `a|ab`. -/
def shorterFirst : List Char := ['a', '|', 'a', 'b']

/-- A cursor at the second byte of `xab`. -/
def behindFirst : Reader where
  window := .ofSource ⟨[.data [120, 97, 98]]⟩
  cursor := { position := 1 }

/-- Of two branches the first one is preferred, although the second one would match more. -/
theorem compile_anchors_shorterFirst :
    engine.Documented ∧ engine.parse shorterFirst ≠ .error engine.unopenedGroup ∧
      ∃ pattern, Pattern.compile engine .literal shorterFirst 8 = .ok pattern ∧
        Leads (Primitive.pattern pattern).attempt behindFirst
          (fun found after => found = some (.leaf .literal [97] 1) ∧ after.cursor.position = 2)
          (fun _ _ => False) := by
  have hText : engine.parse shorterFirst =
      .ok { expr := .alt (.literal ['a']) (.literal ['a', 'b']), depth := 2 } := by
    cbv
  have hBehind : engine.parse (shorterFirst ++ [')']) = .error engine.unopenedGroup := by
    cbv
  have hClosed : ¬ engine.EndsInComment shorterFirst := by
    rintro ⟨expr, hExpr⟩
    cases hBehind.symm.trans hExpr
  have hOpened : engine.parse shorterFirst ≠ .error engine.unopenedGroup := by
    rw [hText]
    simp
  have hLimits : (engine.parse (anchored shorterFirst)).toOption.all engine.withinLimits := by
    cbv
  obtain ⟨hCompiles, hAnchors⟩ := compile_anchors documented_engine .literal shorterFirst 8 hOpened
  obtain ⟨pattern, hPattern⟩ := hCompiles.2 ⟨_, hText, hClosed, fun behind hAnchored => by
    rw [hAnchored] at hLimits
    exact hLimits⟩
  obtain ⟨hTag, hWindow, expr, hExpr, hPlace⟩ := hAnchors pattern hPattern
  cases hText.symm.trans hExpr
  have hFront : (engine.build
      { expr := .alt (.literal ['a']) (.literal ['a', 'b']), depth := 2 }).front? [97, 98] =
        some 1 := by
    cbv
  have hSeen : (([120, 97, 98] : List UInt8).drop behindFirst.cursor.position).take 8 = [97, 98] :=
    rfl
  refine ⟨documented_engine, hOpened, pattern, hPattern, ?_⟩
  have hRun := hPlace behindFirst [120, 97, 98] (Window.over_content _ _)
  rw [hTag, hWindow] at hRun
  apply hRun.mono
  · intro found after hFound
    obtain ⟨hMatch, hCursor⟩ := hFound
    rw [hSeen, hFront] at hMatch hCursor
    exact ⟨hMatch, congrArg Cursor.position hCursor⟩
  · intro halt after hHalts
    obtain ⟨fault, -, hStale | hFails⟩ := hHalts
    · exact absurd hStale (Nat.not_lt_zero 1)
    · exact hFails (by simp [Source.Calm, behindFirst, Window.ofSource])

/-- The text `a)|(?:b`, which closes the group around it and opens another one, so that its second
branch stands before no assertion. -/
def escaping : List Char := ['a', ')', '|', '(', '?', ':', 'b']

/-- The text `(?x)a#c`, at the end of which there is a comment. -/
def remarking : List Char := ['(', '?', 'x', ')', 'a', '#', 'c']

/-- Not every text that compiles as a pattern is an expression, nor does every expression compile,
nor is every match one at the cursor. -/
theorem not_forall_compiles_iff :
    (¬ ∀ library : Regex.Library, library.Documented →
      ∀ (tag : Tag) (text : List Char) (window : Nat),
      (∃ pattern, Pattern.compile library tag text window = .ok pattern) →
        ∃ expr, library.parse text = .ok expr) ∧
    (¬ ∀ library : Regex.Library, library.Documented →
      ∀ (tag : Tag) (text : List Char) (window : Nat),
      (∃ expr, library.parse text = .ok expr) →
        ∃ pattern, Pattern.compile library tag text window = .ok pattern) ∧
    ¬ ∀ library : Regex.Library, library.Documented → ∀ (tag : Tag) (text : List Char) (window : Nat)
      (pattern : Pattern) (bytes : List UInt8) (start stop : Nat),
      Pattern.compile library tag text window = .ok pattern →
        pattern.regex.find bytes = some (start, stop) → start = 0 := by
  have hText : engine.parse escaping = .error engine.unopenedGroup := by cbv
  have hRemark : (engine.parse remarking).isOk = true := by cbv
  have hRefused : (Pattern.compile engine .literal remarking 8).isOk = false := by cbv
  have hCompiles : (Pattern.compile engine .literal escaping 8).toOption.map
      (·.regex.find [120, 98]) = some (some (1, 2)) := by
    cbv
  obtain ⟨pattern, hPattern, hFind⟩ := Option.map_eq_some_iff.1 hCompiles
  have hOk : Pattern.compile engine .literal escaping 8 = .ok pattern := by
    cases hCompile : Pattern.compile engine .literal escaping 8 with
    | error defect =>
      rw [hCompile] at hPattern
      cases hPattern
    | ok other =>
      rw [hCompile] at hPattern
      cases hPattern
      rfl
  refine ⟨fun hAll => ?_, fun hAll => ?_, fun hAll => ?_⟩
  · obtain ⟨expr, hExpr⟩ := hAll engine documented_engine .literal escaping 8 ⟨pattern, hOk⟩
    cases hText.symm.trans hExpr
  · have hExpr : ∃ expr, engine.parse remarking = .ok expr := by
      cases hParse : engine.parse remarking with
      | error defect =>
        rw [hParse] at hRemark
        cases hRemark
      | ok expr => exact ⟨expr, rfl⟩
    obtain ⟨pattern, hCompile⟩ := hAll engine documented_engine .literal remarking 8 hExpr
    rw [hCompile] at hRefused
    cases hRefused
  · exact absurd (hAll engine documented_engine .literal escaping 8 pattern [120, 98] 1 2 hOk hFind)
      (by decide)

end Pattern

end StreamMatch
