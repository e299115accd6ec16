import CloudDrive.Foundation.Patterns

/-! # De-identification

`classify_and_deidentify` of `app/assistant/llm/privacy.py`, with its two regular
expressions. -/

namespace CloudDrive

open Patterns

/-- `str.isalnum` beyond ASCII, from the Unicode database. -/
class UnicodeData where
  isAlnum : Char → Bool

/-- `\w` of a Unicode pattern. -/
def isWordChar [UnicodeData] (char : Char) : Bool :=
  if char.toNat < 128 then char.isAlphanum || char == '_' else UnicodeData.isAlnum char

namespace Privacy

inductive PrivacyDefault where
  | sensitive
  | nonSensitive
  deriving DecidableEq, Repr

section Redaction

variable [UnicodeData]

def literal (char : Char) : Pattern Char :=
  .one fun other => other == char

/-- `[\w-]+`. -/
def domainLabel : Pattern Char :=
  .plus (.one fun char => isWordChar char || char == '-')

/-- `_EMAIL_RE`: `[\w.+-]+@[\w-]+(?:\.[\w-]+)+`. -/
def emailRe : Pattern Char :=
  .seq (.plus (.one fun char => isWordChar char || char == '.' || char == '+' || char == '-'))
    (.seq (literal '@') (.seq domainLabel (.plus (.seq (literal '.') domainLabel))))

/-- `[0-9a-fA-F]`. -/
def isHexDigit (char : Char) : Bool :=
  char.isDigit || (decide ('a' ≤ char ∧ char ≤ 'f')) || (decide ('A' ≤ char ∧ char ≤ 'F'))

def hexDigits (count : Nat) : Pattern Char :=
  .times count (.one isHexDigit)

/-- `_UUID_RE`: hexadecimal groups of 8, 4, 4, 4 and 12 between word boundaries. -/
def uuidRe : Pattern Char :=
  .seq .boundary (.seq (hexDigits 8) (.seq (literal '-') (.seq (hexDigits 4)
    (.seq (literal '-') (.seq (hexDigits 4) (.seq (literal '-') (.seq (hexDigits 4)
      (.seq (literal '-') (.seq (hexDigits 12) .boundary)))))))))

structure PrivacyDecision where
  isSensitive : Bool
  textForExternal : String
  deidentified : Bool
  reason : String

/-- `pattern.sub(new, text)`. -/
def substitute (pattern : Pattern Char) (new text : String) : String :=
  String.ofList (sub isWordChar pattern new.toList text.toList)

def redact (text : String) : String :=
  substitute uuidRe "[uuid]" (substitute emailRe "[email]" text)

def classifyAndDeidentify (text : String) (default : PrivacyDefault) : PrivacyDecision :=
  if default = .sensitive then
    { isSensitive := true, textForExternal := text, deidentified := false,
      reason := "privacy default is sensitive" }
  else
    { isSensitive := decide (redact text ≠ text), textForExternal := redact text,
      deidentified := decide (redact text ≠ text),
      reason := if redact text ≠ text then "detected identifiers"
        else "no sensitive markers detected" }

/-! ## The two patterns -/

/-- Some part of the text is an address or an identifier. -/
def HasIdentifier (text : String) : Prop :=
  Found isWordChar emailRe text.toList ∨ Found isWordChar uuidRe text.toList

/-- Neither a bracket of a replacement nor a line end. -/
def Inline (char : Char) : Prop :=
  char ≠ '[' ∧ char ≠ ']' ∧ char ≠ '\n'

omit [UnicodeData] in
theorem inline_of {among : Char → Bool} (opening : among '[' = false)
    (closing : among ']' = false) (lineEnd : among '\n' = false) :
    ∀ char, among char = true → Inline char := by
  intro char isAmong
  refine ⟨?_, ?_, ?_⟩
  · intro same
    rw [same, opening] at isAmong
    cases isAmong
  · intro same
    rw [same, closing] at isAmong
    cases isAmong
  · intro same
    rw [same, lineEnd] at isAmong
    cases isAmong

theorem emailRe_over : (emailRe).Over Inline := by
  have label : ∀ char, (isWordChar char || char == '-') = true → Inline char :=
    inline_of rfl rfl rfl
  have literals : ∀ sign, Inline sign → ∀ char, (char == sign) = true → Inline char :=
    fun sign inline char same => beq_iff_eq.mp same ▸ inline
  exact ⟨inline_of rfl rfl rfl, literals '@' (by simp [Inline]), label,
    literals '.' (by simp [Inline]), label⟩

omit [UnicodeData] in
theorem uuidRe_over : uuidRe.Over Inline := by
  have digit : ∀ char, isHexDigit char = true → Inline char := inline_of rfl rfl rfl
  have hyphen : ∀ char, (char == '-') = true → Inline char :=
    inline_of rfl rfl rfl
  exact ⟨trivial, digit, hyphen, digit, hyphen, digit, hyphen, digit, hyphen, digit, trivial⟩

theorem emailRe_takes : emailRe.Takes :=
  .inl trivial

omit [UnicodeData] in
theorem uuidRe_takes : uuidRe.Takes :=
  .inr (.inl ⟨by decide, trivial⟩)

theorem emailRe_unbounded : emailRe.Unbounded :=
  ⟨trivial, trivial, trivial, trivial, trivial⟩

theorem mem_of_literal {sign : Char} {left right : Bool} {taken : List Char}
    (matched : Matches isWordChar (literal sign) left taken right) : sign ∈ taken := by
  cases matched with
  | one same => exact beq_iff_eq.mp same ▸ List.mem_singleton_self _

/-- Every address has an `@`. -/
theorem emailRe_foreign {word : List Char} (noAt : '@' ∉ word) :
    Foreign isWordChar word emailRe := by
  intro left right taken matched
  cases matched with
  | seq _ rest =>
      cases rest with
      | seq at_ _ =>
          exact ⟨'@', List.mem_append_right _ (List.mem_append_left _ (mem_of_literal at_)), noAt⟩

/-- Every identifier has a hyphen. -/
theorem uuidRe_foreign {word : List Char} (noHyphen : '-' ∉ word) :
    Foreign isWordChar word uuidRe := by
  intro left right taken matched
  cases matched with
  | seq _ rest =>
      cases rest with
      | seq _ rest =>
          cases rest with
          | seq hyphen _ =>
              apply Exists.intro '-'
              apply And.intro _ noHyphen
              apply List.mem_append_right
              apply List.mem_append_right
              exact List.mem_append_left _ (mem_of_literal hyphen)

theorem isWordChar_of_hex {char : Char} (hex : isHexDigit char = true) :
    isWordChar char = true := by
  simp only [isHexDigit, Char.isDigit, Bool.or_eq_true, Bool.and_eq_true, decide_eq_true_eq,
    Char.le_def, UInt32.le_iff_toNat_le, ge_iff_le] at hex
  have small : char.toNat < 128 := by
    have isVal : char.toNat = char.val.toNat := rfl
    rcases hex with (digit | lower) | upper
    · exact isVal ▸ Nat.lt_of_le_of_lt digit.2 (by decide)
    · exact isVal ▸ Nat.lt_of_le_of_lt lower.2 (by decide)
    · exact isVal ▸ Nat.lt_of_le_of_lt upper.2 (by decide)
  have alphanumeric : char.isAlphanum =
      ((decide (char.val ≥ 65 ∧ char.val ≤ 90) ||
          decide (char.val ≥ 97) && decide (char.val ≤ 122)) ||
        decide (char.val ≥ 48) && decide (char.val ≤ 57)) := rfl
  rw [isWordChar, if_pos small, alphanumeric]
  simp only [Bool.or_eq_true, Bool.and_eq_true, decide_eq_true_eq, UInt32.le_iff_toNat_le,
    ge_iff_le]
  rcases hex with (digit | lower) | upper
  · exact .inl (.inr digit)
  · exact .inl (.inl (.inr ⟨lower.1, Nat.le_trans lower.2 (by decide)⟩))
  · exact .inl (.inl (.inl ⟨upper.1, Nat.le_trans upper.2 (by decide)⟩))

/-- Digits begin and end with a word character, whatever is beside them. -/
theorem hexDigits_edges : ∀ {count : Nat} {left right : Bool} {taken : List Char},
    Matches isWordChar (hexDigits (count + 1)) left taken right →
    (∀ edge, firstEdge isWordChar taken edge = true) ∧
      ∀ edge, lastEdge isWordChar edge taken = true
  | count, left, right, taken, matched => by
      cases matched with
      | oneMore once more =>
          cases once with
          | one hex =>
              have isWord := isWordChar_of_hex hex
              apply And.intro fun _ => isWord
              cases count with
              | zero =>
                  cases more
                  exact fun _ => isWord
              | succ count => exact fun _ => (hexDigits_edges more).2 _

/-- The right edge of a match and its last character, from the last part of a pattern. -/
def EndsWhole (pattern : Pattern Char) : Prop :=
  ∀ {left right : Bool} {taken : List Char}, Matches isWordChar pattern left taken right →
    right = false ∧ ∀ edge, lastEdge isWordChar edge taken = true

theorem EndsWhole.seq {first second : Pattern Char} (ends : EndsWhole second) :
    EndsWhole (.seq first second) := by
  intro left right taken matched
  cases matched with
  | seq _ more =>
      rcases ends more with ⟨noWord, isWord⟩
      exact ⟨noWord, fun edge => (lastEdge_append edge _ _).trans (isWord _)⟩

theorem hexDigits_endWhole (count : Nat) :
    EndsWhole (.seq (hexDigits (count + 1)) .boundary) := by
  intro left right taken matched
  cases matched with
  | seq digits more =>
      cases more with
      | boundary differs =>
          rcases hexDigits_edges digits with ⟨_, isWord⟩
          rw [isWord] at differs
          rw [List.append_nil]
          exact ⟨(Bool.eq_false_or_eq_true right).resolve_left fun same => differs same.symm,
            isWord⟩

/-- An identifier stands between word boundaries, and its ends are digits. -/
theorem uuidRe_whole : Whole isWordChar uuidRe := by
  have ends : EndsWhole uuidRe := by
    apply EndsWhole.seq
    iterate 8 apply EndsWhole.seq
    exact hexDigits_endWhole 11
  have starts : ∀ {left right : Bool} {taken : List Char},
      Matches isWordChar uuidRe left taken right →
      left = false ∧ ∀ edge, firstEdge isWordChar taken edge = true := by
    intro left right taken matched
    cases matched with
    | seq bounded rest =>
        cases bounded with
        | boundary differs =>
            cases rest with
            | @seq _ _ _ _ digits later digitsMatch _ =>
                have isWord : ∀ edge, firstEdge isWordChar (digits ++ later) edge = true :=
                  fun edge => (firstEdge_append digits later edge).trans
                    ((hexDigits_edges digitsMatch).1 _)
                rw [isWord] at differs
                exact ⟨(Bool.eq_false_or_eq_true left).resolve_left differs, isWord⟩
  exact ⟨fun matched => (starts matched).1, fun matched => (ends matched).1,
    fun matched => (starts matched).2, fun matched => (ends matched).2⟩

/-! ## What is redacted -/

theorem redact_clean (text : String) : ¬ HasIdentifier (redact text) := by
  have opened : ¬ Inline '[' := fun inline => inline.1 rfl
  have closed : ¬ Inline ']' := fun inline => inline.2.1 rfl
  have notEmail : Foreign isWordChar "email".toList emailRe := emailRe_foreign (by decide)
  have notUuid : Foreign isWordChar "uuid".toList emailRe := emailRe_foreign (by decide)
  have noHyphen : Foreign isWordChar "uuid".toList uuidRe := uuidRe_foreign (by decide)
  have noAddress : ¬ Found isWordChar emailRe (substitute emailRe "[email]" text).toList := by
    rw [substitute, String.toList_ofList]
    exact not_found_sub emailRe_takes opened closed emailRe_over emailRe_takes notEmail
      emailRe_unbounded (.inl rfl)
  intro found
  rw [HasIdentifier, redact, substitute, String.toList_ofList] at found
  rcases found with address | identifier
  · exact not_found_sub uuidRe_takes opened closed emailRe_over emailRe_takes notUuid
      emailRe_unbounded (.inr noAddress) address
  · exact not_found_sub_whole uuidRe_takes opened closed uuidRe_over noHyphen uuidRe_whole
      identifier

theorem redact_eq_self {text : String} (clean : ¬ HasIdentifier text) : redact text = text := by
  have same : ∀ {pattern : Pattern Char} {new : String},
      ¬ Found isWordChar pattern text.toList → substitute pattern new text = text := by
    intro pattern new absent
    rw [substitute, sub_eq_self absent, String.ofList_toList]
  rw [redact, same fun address => clean (.inl address),
    same fun identifier => clean (.inr identifier)]

/-- Joining lines makes and breaks no identifier. -/
theorem hasIdentifier_joined (lines : List String) :
    HasIdentifier ("\n".intercalate lines) ↔ ∃ line ∈ lines, HasIdentifier line := by
  have apart : ¬ Inline '\n' := fun inline => inline.2.2 rfl
  rw [HasIdentifier, String.toList_intercalate]
  have both : "\n".toList = ['\n'] := rfl
  rw [both, found_intercalate emailRe_over emailRe_takes apart rfl,
    found_intercalate uuidRe_over uuidRe_takes apart rfl]
  simp only [List.mem_map, exists_exists_and_eq_and]
  constructor
  · intro either
    rcases either with ⟨line, member, found⟩ | ⟨line, member, found⟩
    · exact ⟨line, member, .inl found⟩
    · exact ⟨line, member, .inr found⟩
  · intro someLine
    rcases someLine with ⟨line, member, found | found⟩
    · exact .inl ⟨line, member, found⟩
    · exact .inr ⟨line, member, found⟩

end Redaction

end Privacy

end CloudDrive
