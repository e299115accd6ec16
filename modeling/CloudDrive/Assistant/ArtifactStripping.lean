import CloudDrive.Assistant.Planner
import CloudDrive.Foundation.Signatures

/-! # Decoding artifacts

What `_strip_decoding_artifacts` leaves of a text, and `_clean_artifacts` of a JSON value. -/

namespace CloudDrive

open Signatures

/-! ## Signatures -/

/-- The texts that `_JSON_CLOSURE_DEBRIS` matches. -/
def Debris (text : List Char) : Prop :=
  ∃ quote spaces bracket tail, text = quote :: (spaces ++ bracket :: tail) ∧
    (quote = '\'' ∨ quote = '"') ∧ (∀ char ∈ spaces, isSpace char = true) ∧
    (bracket = '}' ∨ bracket = ']') ∧
    ∀ char ∈ tail, char = '}' ∨ char = ']' ∨ isSpace char = true

/-- A template token, or the end of a JSON object behind a quote. -/
def HasArtifact (text : List Char) : Prop :=
  (∃ token ∈ decodingArtifacts, token.toList <:+: text) ∨ Contains Debris text

theorem HasArtifact.inside {shorter text : List Char} (has : HasArtifact shorter)
    (isPart : shorter <:+: text) : HasArtifact text := by
  rcases has with ⟨token, member, inShorter⟩ | debris
  · exact .inl ⟨token, member, inShorter.trans isPart⟩
  · exact .inr (debris.inside isPart)

theorem tells_token (token : String) :
    Tells (· = token.toList) fun rest => token.toList.isPrefixOf rest := by
  intro text
  rw [List.isPrefixOf_iff_prefix]
  constructor
  · exact fun isFirst => ⟨token.toList, rfl, isFirst⟩
  · rintro ⟨part, rfl, isFirst⟩
    exact isFirst

theorem contains_token {token : String} {text : List Char} :
    Contains (· = token.toList) text ↔ token.toList <:+: text := by
  constructor
  · rintro ⟨part, rfl, isPart⟩
    exact isPart
  · exact fun isPart => ⟨token.toList, rfl, isPart⟩

theorem not_isSpace_of_bracket {bracket : Char} (closes : bracket = '}' ∨ bracket = ']') :
    isSpace bracket = false := by
  rcases closes with rfl | rfl <;> decide

/-- The spaces after a quote end where the bracket stands. -/
theorem dropWhile_spaces {spaces rest : List Char} {bracket : Char}
    (blank : ∀ char ∈ spaces, isSpace char = true) (closes : bracket = '}' ∨ bracket = ']') :
    (spaces ++ bracket :: rest).dropWhile isSpace = bracket :: rest := by
  rw [List.dropWhile_append_of_pos blank, List.dropWhile_cons_of_neg]
  rw [not_isSpace_of_bracket closes]
  exact Bool.false_ne_true

theorem tells_debris : Tells Debris closesJson := by
  intro text
  constructor
  · intro closes
    cases text with
    | nil => cases closes
    | cons quote rest =>
        rw [closesJson, Bool.and_eq_true, Bool.or_eq_true, beq_iff_eq, beq_iff_eq] at closes
        rcases closes with ⟨isQuote, ends⟩
        cases dropped : rest.dropWhile isSpace with
        | nil =>
            rw [dropped] at ends
            cases ends
        | cons bracket tail =>
            rw [dropped] at ends
            have isBracket : bracket = '}' ∨ bracket = ']' := by
              simpa using ends
            have split : rest = rest.takeWhile isSpace ++ bracket :: tail := by
              rw [← dropped, List.takeWhile_append_dropWhile]
            refine ⟨quote :: (rest.takeWhile isSpace ++ [bracket]), ?_, tail, ?_⟩
            · refine ⟨quote, rest.takeWhile isSpace, bracket, [], rfl, isQuote, ?_, isBracket, ?_⟩
              · exact fun char member => List.mem_takeWhile_imp member
              · intro char member
                cases member
            · rw [List.cons_append, List.append_assoc, List.singleton_append, ← split]
  · rintro ⟨part, ⟨quote, spaces, bracket, tail, rfl, isQuote, blank, isBracket, _⟩, after, rfl⟩
    rw [List.cons_append, List.append_assoc, List.cons_append, closesJson,
      dropWhile_spaces blank isBracket]
    simpa using ⟨isQuote, isBracket⟩

theorem debris_ne_nil (part : List Char) (debris : Debris part) : part ≠ [] := by
  rcases debris with ⟨quote, spaces, bracket, tail, rfl, _⟩
  exact List.cons_ne_nil _ _

theorem token_ne_nil : ∀ token ∈ decodingArtifacts, token.toList ≠ [] := by
  decide

/-! ## Texts -/

/-- `cuts` of `_strip_decoding_artifacts`. -/
def artifactCuts (text : List Char) : List Nat :=
  decodingArtifacts.filterMap (findText · text) ++ (text.tails.findIdx? closesJson).toList

theorem mem_artifactCuts {text : List Char} {cut : Nat} :
    cut ∈ artifactCuts text ↔
      (∃ token ∈ decodingArtifacts, findText token text = some cut) ∨
        text.tails.findIdx? closesJson = some cut := by
  rw [artifactCuts, List.mem_append, List.mem_filterMap, Option.mem_toList]

/-- There is a place to cut exactly where the text has an artifact. -/
theorem artifactCuts_eq_nil {text : List Char} :
    artifactCuts text = [] ↔ ¬ HasArtifact text := by
  constructor
  · rintro nothing (⟨token, member, isPart⟩ | debris)
    · cases found : findText token text with
      | none =>
          have absent := (findIdx?_tails_eq_none (tells_token token)).mp found
          exact absent (contains_token.mpr isPart)
      | some cut =>
          have isCut := mem_artifactCuts.mpr (.inl ⟨token, member, found⟩)
          rw [nothing] at isCut
          cases isCut
    · cases found : text.tails.findIdx? closesJson with
      | none => exact (findIdx?_tails_eq_none tells_debris).mp found debris
      | some cut =>
          have isCut := mem_artifactCuts.mpr (.inr found)
          rw [nothing] at isCut
          cases isCut
  · intro clean
    rw [List.eq_nil_iff_forall_not_mem]
    intro cut isCut
    rcases mem_artifactCuts.mp isCut with ⟨token, member, found⟩ | found
    · have absent : findText token text = none :=
        (findIdx?_tails_eq_none (tells_token token)).mpr fun contains =>
          clean (.inl ⟨token, member, contains_token.mp contains⟩)
      rw [absent] at found
      cases found
    · rw [(findIdx?_tails_eq_none tells_debris).mpr fun debris => clean (.inr debris)] at found
      cases found

/-- Up to the least cut the text has no artifact. -/
theorem not_hasArtifact_take {text : List Char} {bound : Nat}
    (least : ∀ cut ∈ artifactCuts text, bound ≤ cut) : ¬ HasArtifact (text.take bound) := by
  rintro (⟨token, member, isPart⟩ | debris)
  · refine not_contains_take (tells_token token) ?_ ?_ (contains_token.mpr isPart)
    · rintro part rfl
      exact token_ne_nil token member
    · exact fun cut found => least cut (mem_artifactCuts.mpr (.inl ⟨token, member, found⟩))
  · refine not_contains_take tells_debris debris_ne_nil ?_ debris
    exact fun cut found => least cut (mem_artifactCuts.mpr (.inr found))

theorem stripDecodingArtifacts_eq (value : String) :
    stripDecodingArtifacts value = match (artifactCuts value.toList).min? with
      | none => value
      | some cut => String.ofList
          ((value.toList.take cut).reverse.dropWhile (· ∈ artifactTail)).reverse := rfl

theorem stripDecodingArtifacts_of_clean {value : String} (clean : ¬ HasArtifact value.toList) :
    stripDecodingArtifacts value = value := by
  rw [stripDecodingArtifacts_eq, artifactCuts_eq_nil.mpr clean]
  rfl

/-- `text.rstrip` leaves a beginning of the text. -/
theorem rstrip_isFirst (text : List Char) (isTail : Char → Bool) :
    (text.reverse.dropWhile isTail).reverse <+: text := by
  rw [← List.reverse_suffix, List.reverse_reverse]
  exact List.dropWhile_suffix isTail

theorem stripDecodingArtifacts_clean (value : String) :
    (stripDecodingArtifacts value).toList <+: value.toList ∧
      ¬ HasArtifact (stripDecodingArtifacts value).toList := by
  rw [stripDecodingArtifacts_eq]
  cases least : (artifactCuts value.toList).min? with
  | none => exact ⟨List.prefix_refl _, artifactCuts_eq_nil.mp (List.min?_eq_none_iff.mp least)⟩
  | some bound =>
      dsimp only
      rw [String.toList_ofList]
      have isFirst := rstrip_isFirst (value.toList.take bound) (· ∈ artifactTail)
      have bounds := (List.min?_eq_some_iff.mp least).2
      refine ⟨isFirst.trans (List.take_prefix bound value.toList), ?_⟩
      exact fun has => not_hasArtifact_take bounds (has.inside isFirst.isInfix)

theorem stripDecodingArtifacts_idem (value : String) :
    stripDecodingArtifacts (stripDecodingArtifacts value) = stripDecodingArtifacts value :=
  stripDecodingArtifacts_of_clean (stripDecodingArtifacts_clean value).2

/-! ## The texts in a value -/

namespace Value

mutual

/-- The value with another text at every text in it. -/
def mapTexts (change : String → String) : Value → Value
  | .string text => .string (change text)
  | .list elements => .list (mapElements change elements)
  | .object fields => .object (mapFields change fields)
  | .null => .null
  | .bool value => .bool value
  | .int value => .int value
  | .float text whole => .float text whole

def mapElements (change : String → String) : List Value → List Value
  | [] => []
  | element :: rest => mapTexts change element :: mapElements change rest

def mapFields (change : String → String) : Arguments → Arguments
  | [] => []
  | (key, value) :: rest => (key, mapTexts change value) :: mapFields change rest

end

mutual

/-- The texts in a value, without the keys. -/
def texts : Value → List String
  | .string text => [text]
  | .list elements => textsOfElements elements
  | .object fields => textsOfFields fields
  | .null => []
  | .bool _ => []
  | .int _ => []
  | .float _ _ => []

def textsOfElements : List Value → List String
  | [] => []
  | element :: rest => texts element ++ textsOfElements rest

def textsOfFields : Arguments → List String
  | [] => []
  | (_, value) :: rest => texts value ++ textsOfFields rest

end

/-- What is left of a value when its texts are emptied: its keys, the lengths of its
lists and its other leaves. -/
def frame (value : Value) : Value :=
  value.mapTexts fun _ => ""

section MapTexts

variable (first second : String → String)

mutual

theorem mapTexts_mapTexts : ∀ value : Value,
    (value.mapTexts first).mapTexts second = value.mapTexts (second ∘ first)
  | .string text => by rw [mapTexts, mapTexts, mapTexts, Function.comp]
  | .list elements => by rw [mapTexts, mapTexts, mapTexts, mapElements_mapElements elements]
  | .object fields => by rw [mapTexts, mapTexts, mapTexts, mapFields_mapFields fields]
  | .null => by rw [mapTexts, mapTexts, mapTexts]
  | .bool value => by rw [mapTexts, mapTexts, mapTexts]
  | .int value => by rw [mapTexts, mapTexts, mapTexts]
  | .float text whole => by rw [mapTexts, mapTexts, mapTexts]

theorem mapElements_mapElements : ∀ elements : List Value,
    mapElements second (mapElements first elements) = mapElements (second ∘ first) elements
  | [] => by rw [mapElements, mapElements, mapElements]
  | element :: rest => by
      rw [mapElements, mapElements, mapElements, mapTexts_mapTexts element,
        mapElements_mapElements rest]

theorem mapFields_mapFields : ∀ fields : Arguments,
    mapFields second (mapFields first fields) = mapFields (second ∘ first) fields
  | [] => by rw [mapFields, mapFields, mapFields]
  | (key, value) :: rest => by
      rw [mapFields, mapFields, mapFields, mapTexts_mapTexts value, mapFields_mapFields rest]

end

variable {first second}

mutual

theorem mapTexts_congr : ∀ {value : Value}, (∀ text ∈ value.texts, first text = second text) →
    value.mapTexts first = value.mapTexts second
  | .string text, same => by
      rw [mapTexts, mapTexts, same text (by rw [texts]; exact List.mem_singleton_self text)]
  | .list elements, same => by
      rw [texts] at same
      rw [mapTexts, mapTexts, mapElements_congr same]
  | .object fields, same => by
      rw [texts] at same
      rw [mapTexts, mapTexts, mapFields_congr same]
  | .null, _ => by rw [mapTexts, mapTexts]
  | .bool value, _ => by rw [mapTexts, mapTexts]
  | .int value, _ => by rw [mapTexts, mapTexts]
  | .float text whole, _ => by rw [mapTexts, mapTexts]

theorem mapElements_congr : ∀ {elements : List Value},
    (∀ text ∈ textsOfElements elements, first text = second text) →
    mapElements first elements = mapElements second elements
  | [], _ => by rw [mapElements, mapElements]
  | element :: rest, same => by
      rw [textsOfElements] at same
      rw [mapElements, mapElements,
        mapTexts_congr fun text member => same text (List.mem_append_left _ member),
        mapElements_congr fun text member => same text (List.mem_append_right _ member)]

theorem mapFields_congr : ∀ {fields : Arguments},
    (∀ text ∈ textsOfFields fields, first text = second text) →
    mapFields first fields = mapFields second fields
  | [], _ => by rw [mapFields, mapFields]
  | (key, value) :: rest, same => by
      rw [textsOfFields] at same
      rw [mapFields, mapFields,
        mapTexts_congr fun text member => same text (List.mem_append_left _ member),
        mapFields_congr fun text member => same text (List.mem_append_right _ member)]

end

mutual

theorem mapTexts_id : ∀ value : Value, value.mapTexts id = value
  | .string text => by rw [mapTexts, id]
  | .list elements => by rw [mapTexts, mapElements_id elements]
  | .object fields => by rw [mapTexts, mapFields_id fields]
  | .null => by rw [mapTexts]
  | .bool value => by rw [mapTexts]
  | .int value => by rw [mapTexts]
  | .float text whole => by rw [mapTexts]

theorem mapElements_id : ∀ elements : List Value, mapElements id elements = elements
  | [] => by rw [mapElements]
  | element :: rest => by rw [mapElements, mapTexts_id element, mapElements_id rest]

theorem mapFields_id : ∀ fields : Arguments, mapFields id fields = fields
  | [] => by rw [mapFields]
  | (key, value) :: rest => by rw [mapFields, mapTexts_id value, mapFields_id rest]

end

theorem frame_mapTexts (value : Value) : (value.mapTexts first).frame = value.frame := by
  rw [frame, mapTexts_mapTexts, frame]
  rfl

end MapTexts

end Value

mutual

theorem cleanArtifacts_eq : ∀ value : Value,
    cleanArtifacts value = value.mapTexts stripDecodingArtifacts
  | .string text => by rw [cleanArtifacts, Value.mapTexts]
  | .list elements => by rw [cleanArtifacts, Value.mapTexts, cleanElements_eq elements]
  | .object fields => by rw [cleanArtifacts, Value.mapTexts, cleanFields_eq fields]
  | .null => by rw [cleanArtifacts, Value.mapTexts]
  | .bool value => by rw [cleanArtifacts, Value.mapTexts]
  | .int value => by rw [cleanArtifacts, Value.mapTexts]
  | .float text whole => by rw [cleanArtifacts, Value.mapTexts]

theorem cleanElements_eq : ∀ elements : List Value,
    cleanElements elements = Value.mapElements stripDecodingArtifacts elements
  | [] => by rw [cleanElements, Value.mapElements]
  | element :: rest => by
      rw [cleanElements, Value.mapElements, cleanArtifacts_eq element, cleanElements_eq rest]

theorem cleanFields_eq : ∀ fields : Arguments,
    cleanFields fields = Value.mapFields stripDecodingArtifacts fields
  | [] => by rw [cleanFields, Value.mapFields]
  | (key, value) :: rest => by
      rw [cleanFields, Value.mapFields, cleanArtifacts_eq value, cleanFields_eq rest]

end

theorem cleanArtifacts_idem (value : Value) :
    cleanArtifacts (cleanArtifacts value) = cleanArtifacts value := by
  have twice : stripDecodingArtifacts ∘ stripDecodingArtifacts = stripDecodingArtifacts := by
    funext text
    rw [Function.comp_apply, stripDecodingArtifacts_idem]
  calc cleanArtifacts (cleanArtifacts value)
      = (value.mapTexts stripDecodingArtifacts).mapTexts stripDecodingArtifacts := by
        rw [cleanArtifacts_eq, cleanArtifacts_eq value]
    _ = value.mapTexts (stripDecodingArtifacts ∘ stripDecodingArtifacts) :=
        Value.mapTexts_mapTexts _ _ value
    _ = value.mapTexts stripDecodingArtifacts := by rw [twice]
    _ = cleanArtifacts value := (cleanArtifacts_eq value).symm

theorem cleanArtifacts_of_clean {value : Value}
    (clean : ∀ text ∈ value.texts, ¬ HasArtifact text.toList) : cleanArtifacts value = value := by
  have same : ∀ text ∈ value.texts, stripDecodingArtifacts text = id text :=
    fun text member => stripDecodingArtifacts_of_clean (clean text member)
  rw [cleanArtifacts_eq, Value.mapTexts_congr same, Value.mapTexts_id]

/-- Stripping is a projection of the texts onto those without an artifact, and cleaning is
one of the values that changes nothing but their texts. -/
theorem stripDecodingArtifacts_projects :
    (∀ value : String, (stripDecodingArtifacts value).toList <+: value.toList ∧
      ¬ HasArtifact (stripDecodingArtifacts value).toList ∧
      stripDecodingArtifacts (stripDecodingArtifacts value) = stripDecodingArtifacts value ∧
      (¬ HasArtifact value.toList → stripDecodingArtifacts value = value)) ∧
    ∀ value : Value, cleanArtifacts (cleanArtifacts value) = cleanArtifacts value ∧
      ((∀ text ∈ value.texts, ¬ HasArtifact text.toList) → cleanArtifacts value = value) ∧
      (cleanArtifacts value).frame = value.frame := by
  constructor
  · intro value
    rcases stripDecodingArtifacts_clean value with ⟨isPrefix, clean⟩
    exact ⟨isPrefix, clean, stripDecodingArtifacts_idem value, stripDecodingArtifacts_of_clean⟩
  · intro value
    have sameFrame : (cleanArtifacts value).frame = value.frame := by
      rw [cleanArtifacts_eq, Value.frame_mapTexts]
    exact ⟨cleanArtifacts_idem value, fun clean => cleanArtifacts_of_clean clean, sameFrame⟩

end CloudDrive
