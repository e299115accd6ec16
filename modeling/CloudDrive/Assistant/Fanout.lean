import CloudDrive.Assistant.FailureIsolation
import CloudDrive.Assistant.Recombination
import CloudDrive.Assistant.SelectionExpansion

/-! # Running over a list

The arguments of `resolve_fanout_arguments` beside those that `resolve_arguments` gives for
one element. -/

namespace CloudDrive

open Outcome

/-! ## Paths in parts -/

/-- The part of a path is a name without a dot. -/
def IsPart (part : String) : Prop :=
  part ≠ "" ∧ '.' ∉ part.toList

theorem not_mem_of_mem_splitOn {separator : Char} : ∀ {chars part : List Char},
    part ∈ chars.splitOn separator → separator ∉ part
  | [], part, among => by
      rw [List.splitOn_nil, List.mem_singleton] at among
      rw [among]
      exact List.not_mem_nil
  | char :: rest, part, among => by
      rw [List.splitOn_cons_eq_if_modifyHead] at among
      split at among
      · rcases List.mem_cons.mp among with rfl | inRest
        · exact List.not_mem_nil
        · exact not_mem_of_mem_splitOn inRest
      · rename_i different
        cases isSplit : rest.splitOn separator with
        | nil => exact absurd isSplit (List.splitOn_ne_nil separator rest)
        | cons first later =>
            have notInside : ∀ other ∈ first :: later, separator ∉ other :=
              fun other member => not_mem_of_mem_splitOn (isSplit ▸ member)
            rw [isSplit, List.modifyHead_cons] at among
            rcases List.mem_cons.mp among with rfl | inLater
            · intro inside
              rcases List.mem_cons.mp inside with same | inFirst
              · exact different (beq_iff_eq.mpr same.symm)
              · exact notInside first List.mem_cons_self inFirst
            · exact notInside part (List.mem_cons_of_mem _ inLater)

theorem isPart_of_mem {path part : String} (among : part ∈ Value.pathParts path) :
    IsPart part := by
  rcases List.mem_filter.mp among with ⟨isSplit, some⟩
  rcases List.mem_map.mp isSplit with ⟨chars, isChars, rfl⟩
  apply And.intro (of_decide_eq_true some)
  rw [String.toList_ofList]
  exact not_mem_of_mem_splitOn isChars

/-- Parts that are joined are the parts of the path. -/
theorem pathParts_join {parts : List String} (areParts : ∀ part ∈ parts, IsPart part) :
    Value.pathParts (".".intercalate parts) = parts := by
  cases parts with
  | nil => rfl
  | cons first rest =>
      rw [Value.pathParts, String.toList_intercalate]
      have dot : ".".toList = ['.'] := rfl
      rw [dot, List.splitOn_intercalate '.' _ (by simp), List.map_map]
      · have same : String.ofList ∘ String.toList = id := funext fun _ => String.ofList_toList
        rw [same, List.map_id, List.filter_eq_self]
        exact fun part member => decide_eq_true (areParts part member).1
      · intro chars member
        rcases List.mem_map.mp member with ⟨part, isPart, rfl⟩
        exact (areParts part isPart).2

theorem join_eq_empty {parts : List String} (areParts : ∀ part ∈ parts, IsPart part) :
    ".".intercalate parts = "" ↔ parts = [] := by
  constructor
  · intro empty
    rw [← pathParts_join areParts, empty]
    rfl
  · rintro rfl
    rfl

theorem isPart_toString (number : Nat) : IsPart (toString number) := by
  constructor
  · exact Nat.repr_ne_empty
  · intro among
    have digits : (toString number).toList = Nat.toDigits 10 number := Nat.toList_repr
    rw [digits] at among
    have isDigit := Nat.isDigit_of_mem_toDigits (by decide) (by decide) among
    cases isDigit

section Resolving

variable [PythonText]

theorem resolveParts_append (output : Value) (first second : List String) :
    output.resolveParts (first ++ second) =
      (output.resolveParts first >>= fun middle => middle.resolveParts second) :=
  List.foldlM_append

/-- `int(str(number))` is the number. -/
class ReadsDecimals : Prop where
  int_toString : ∀ number : Nat, PythonText.int (toString number) = some ↑number

theorem resolvePath_join {output : Value} {parts : List String}
    (areParts : ∀ part ∈ parts, IsPart part) :
    output.resolvePath (".".intercalate parts) = output.resolveParts parts := by
  rw [Value.resolvePath, pathParts_join areParts]

omit [PythonText] in
/-- The path with its first `*` replaced by the position of an element. -/
def elementPath (position : Nat) (path : String) : String :=
  ".".intercalate ((Value.pathParts path).takeWhile (· ≠ "*") ++
    toString position :: ((Value.pathParts path).dropWhile (· ≠ "*")).tail)

/-- The reference to every element of a list, as one to the element at the position. -/
def atElement (position : Nat) (value : Value) : Value :=
  match wildcard? value, value with
  | some _, .object fields =>
      .object (Arguments.set fields "path" (.string (elementPath position value.refPath)))
  | _, _ => value

def elementArguments (position : Nat) (arguments : Arguments) : Arguments :=
  arguments.map fun field => (field.1, atElement position field.2)

theorem wildcard?_eq_some {value : Value} {source : Int} {pre post : String} :
    wildcard? value = some (source, pre, post) ↔
      value.refStep? = some source ∧ wildcardSplit value.refPath = some (pre, post) := by
  rw [wildcard?]
  cases value.refStep? with
  | none => simp
  | some known =>
      cases wildcardSplit value.refPath with
      | none => simp
      | some split => simp [Prod.ext_iff]

theorem atElement_of_none {position : Nat} {value : Value} (plain : wildcard? value = none) :
    atElement position value = value := by
  unfold atElement
  rw [plain]

theorem atElement_refers {position : Nat} {value : Value} {source : Int} {pre post : String}
    (isWildcard : wildcard? value = some (source, pre, post)) :
    (atElement position value).refStep? = some source ∧
      (atElement position value).refPath = elementPath position value.refPath := by
  have refers := (wildcard?_eq_some.mp isWildcard).1
  cases value with
  | object fields =>
      unfold atElement
      rw [isWildcard]
      dsimp only
      constructor
      · rw [← refers, Value.refStep?, Value.refSource, Arguments.get?_set_of_ne (by decide),
          Arguments.get?_set_of_ne (by decide), Value.refStep?, Value.refSource]
      · rw [Value.refPath, Value.field?, Arguments.get?_set_self]
        exact PythonText.str_string _
  | null | bool | int | float | string | list => cases refers

omit [PythonText] in
/-- The path is the one of the list, the `*` and the one of an element. -/
theorem wildcardSplit_eq_some {path pre post : String}
    (split : wildcardSplit path = some (pre, post)) : ∃ before after,
      (∀ part ∈ before, IsPart part) ∧ (∀ part ∈ after, IsPart part) ∧
      pre = ".".intercalate before ∧ post = ".".intercalate after ∧
      ∀ position, elementPath position path =
        ".".intercalate (before ++ toString position :: after) := by
  simp only [wildcardSplit] at split
  split at split
  · cases split
    refine ⟨_, _, ?_, ?_, rfl, rfl, fun _ => rfl⟩
    · exact fun part among => isPart_of_mem ((List.takeWhile_sublist _).subset among)
    · exact fun part among => isPart_of_mem
        ((List.dropWhile_sublist _).subset ((List.tail_sublist _).subset among))
  · cases split

theorem descend_element [ReadsDecimals] {elements : List Value} {position : Nat} {element : Value}
    (found : elements[position]? = some element) :
    (Value.list elements).descend (toString position) = .ok element := by
  have inRange : (0 : Int) ≤ position := Int.natCast_nonneg position
  simp only [Value.descend, ReadsDecimals.int_toString, Option.bind_some, Value.elementAt,
    if_pos inRange, Int.toNat_natCast, found]

theorem referenceParent_join {output : Value} {parts : List String}
    (areParts : ∀ part ∈ parts, IsPart part) (some : parts ≠ []) :
    referenceParent output (".".intercalate parts) = output.resolveParts parts.dropLast := by
  rw [referenceParent, pathParts_join areParts]
  cases parts with
  | nil => exact absurd rfl some
  | cons first rest => rfl

omit [PythonText] in
theorem isPart_element {before after : List String} (position : Nat)
    (beforeParts : ∀ part ∈ before, IsPart part) (afterParts : ∀ part ∈ after, IsPart part) :
    ∀ part ∈ before ++ toString position :: after, IsPart part := by
  intro part among
  rcases List.mem_append.mp among with inBefore | among
  · exact beforeParts part inBefore
  · rcases List.mem_cons.mp among with rfl | inAfter
    · exact isPart_toString position
    · exact afterParts part inAfter

/-- The whole path leads from the output where the rest of it leads from the element, and to
the same destination. -/
theorem resolveChecked_element [ReadsDecimals] {key : String} {output element : Value}
    {elements : List Value} {path pre post : String} {position : Nat}
    (split : wildcardSplit path = some (pre, post))
    (isList : output.resolvePath pre = .ok (.list elements))
    (found : elements[position]? = some element) :
    resolveChecked key output (elementPath position path) =
      if post = "" then .ok element else resolveChecked key element post := by
  rcases wildcardSplit_eq_some split with ⟨before, after, beforeParts, afterParts, rfl, rfl, isPath⟩
  have wholeParts := isPart_element position beforeParts afterParts
  rw [resolvePath_join beforeParts] at isList
  have stepInto : ∀ rest : List String,
      output.resolveParts (before ++ toString position :: rest) = element.resolveParts rest := by
    intro rest
    rw [resolveParts_append, isList]
    show ((Value.list elements).descend (toString position) >>= fun inner =>
      inner.resolveParts rest) = _
    rw [descend_element found]
    rfl
  rw [isPath, resolveChecked, resolvePath_join wholeParts, stepInto,
    referenceParent_join wholeParts (by simp)]
  by_cases last : after = []
  · have empty : ".".intercalate ([] : List String) = "" := rfl
    rw [last, List.dropLast_concat, isList, if_pos empty]
    rfl
  · rw [if_neg (mt (join_eq_empty afterParts).mp last), resolveChecked,
      resolvePath_join afterParts, referenceParent_join afterParts last,
      List.dropLast_append_of_ne_nil (List.cons_ne_nil _ _), List.dropLast_cons_of_ne_nil last,
      stepInto]

/-! ## One argument -/

/-- The argument runs over a list of this length. -/
def RunsOver (results : List StepResult) (length : Nat) (value : Value) : Prop :=
  ∃ source pre post result elements, wildcard? value = some (source, pre, post) ∧
    okResult? results source = some result ∧ result.output.resolvePath pre = .ok (.list elements) ∧
    elements.length = length

/-- The list is the one that the argument runs over. -/
def ListOf (results : List StepResult) (length : Nat) (field : String × Value)
    (each : FanoutList) : Prop :=
  each.key = field.1 ∧ each.collection.length = length ∧ ∃ source pre result,
    wildcard? field.2 = some (source, pre, each.post) ∧ okResult? results source = some result ∧
    result.output.resolvePath pre = .ok (.list each.collection)

/-- What a row takes from a list is what the argument for the element resolves to. -/
theorem resolveArgument_element [ReadsDecimals] {results : List StepResult} {length position : Nat}
    {field : String × Value} {each : FanoutList} (listOf : ListOf results length field each)
    {element value : Value} (found : each.collection[position]? = some element) :
    resolveArgument results field.1 (atElement position field.2) = .ok value ↔
      (if each.post = "" then .ok element else resolveChecked field.1 element each.post) =
        .ok value := by
  rcases listOf with ⟨_, _, source, pre, result, isWildcard, isResult, isList⟩
  rcases @atElement_refers _ position _ _ _ _ isWildcard with ⟨refers, isPath⟩
  have split := (wildcard?_eq_some.mp isWildcard).2
  unfold resolveArgument
  rw [refers]
  simp only [isResult, isPath, orRaise, ok_bind, orLookup_eq_ok]
  rw [resolveChecked_element split isList found]

theorem fanoutList_eq_ok {results : List StepResult} {key : String} {source : Int}
    {pre post : String} {result : StepResult} {elements : List Value}
    (isResult : okResult? results source = some result)
    (isList : result.output.resolvePath pre = .ok (.list elements)) :
    fanoutList results key source pre post = .ok ⟨key, elements, post⟩ := by
  simp only [fanoutList, isResult, orRaise, ok_bind, isList, orLookup]
  rfl

/-- The arguments that run over lists. -/
def wildcardFields (arguments : Arguments) : Arguments :=
  arguments.filter fun field => (wildcard? field.2).isSome

theorem fanoutLists_ok {results : List StepResult} {length : Nat} : ∀ {arguments : Arguments}
    {known : Option Nat}, (∀ field ∈ arguments, (wildcard? field.2).isSome = true →
      RunsOver results length field.2) → (∀ number ∈ known, number = length) →
    ∃ lists, fanoutLists results known arguments = .ok lists ∧
      List.Forall₂ (ListOf results length) (wildcardFields arguments) lists
  | [], _, _, _ => ⟨[], rfl, .nil⟩
  | (key, value) :: rest, known, runs, sameLength => by
      have restRuns : ∀ field ∈ rest, (wildcard? field.2).isSome = true →
          RunsOver results length field.2 :=
        fun field member => runs field (List.mem_cons_of_mem _ member)
      rw [fanoutLists]
      cases isWildcard : wildcard? value with
      | none =>
          rcases fanoutLists_ok restRuns sameLength with ⟨lists, areLists, eachOf⟩
          refine ⟨lists, areLists, ?_⟩
          rwa [wildcardFields, List.filter_cons_of_neg (by rw [isWildcard]; exact Bool.noConfusion)]
      | some split =>
          rcases runs (key, value) List.mem_cons_self (by rw [isWildcard]; rfl) with
            ⟨source, pre, post, result, elements, same, isResult, isList, isLength⟩
          cases isWildcard.symm.trans same
          rcases @fanoutLists_ok results length rest (some length) restRuns (fun _ isLength => by
            cases isLength
            rfl) with ⟨lists, areLists, eachOf⟩
          dsimp only
          rw [fanoutList_eq_ok isResult isList]
          refine ⟨⟨key, elements, post⟩ :: lists, ?_, ?_⟩
          · simp only [bind_eq_ok, pure_eq_ok, require_eq_ok]
            refine ⟨_, rfl, (), ?_, lists, ?_, rfl⟩
            · intro number isKnown
              rw [sameLength number isKnown, isLength]
            · rw [isLength]
              exact areLists
          · rw [wildcardFields, List.filter_cons_of_pos (by rw [isWildcard]; rfl)]
            exact .cons ⟨rfl, isLength, source, pre, result, isWildcard, isResult, isList⟩ eachOf

/-! ## One row -/

/-- The value that a row takes from its first list. -/
theorem fanoutRow_element [ReadsDecimals] {results : List StepResult} {length position : Nat}
    (inside : position < length) {field : String × Value} {each : FanoutList}
    (listOf : ListOf results length field each) (later : List FanoutList)
    (row final : Arguments) :
    fanoutRow position (each :: later) row = .ok final ↔
      ∃ value, resolveArgument results field.1 (atElement position field.2) = .ok value ∧
        fanoutRow position later (row.set field.1 value) = .ok final := by
  have found : each.collection[position]? = some (each.collection.get ⟨position,
      listOf.2.1.symm ▸ inside⟩) := List.getElem?_eq_getElem (listOf.2.1.symm ▸ inside)
  rw [fanoutRow, found]
  simp only [orRaise, ok_bind, resolveArgument_element listOf found]
  by_cases last : each.post = ""
  · simp only [if_pos last, bind_eq_ok, pure_eq_ok, listOf.1, Except.ok.injEq]
  · simp only [if_neg last, bind_eq_ok, orLookup_eq_ok, listOf.1]

/-- A row has the value of every list at its position, and else what it had. -/
theorem fanoutRow_ok [ReadsDecimals] {results : List StepResult} {length position : Nat}
    (inside : position < length) : ∀ {fields : Arguments} {lists : List FanoutList}
    {row final : Arguments}, List.Forall₂ (ListOf results length) fields lists →
      (fields.map Prod.fst).Nodup → fanoutRow position lists row = .ok final →
      (∀ field ∈ fields, ∃ value, final.get? field.1 = some value ∧
        resolveArgument results field.1 (atElement position field.2) = .ok value) ∧
      ∀ name, name ∉ fields.map Prod.fst → final.get? name = row.get? name
  | [], [], row, final, _, _, done => by
      cases done
      exact ⟨fun _ member => absurd member List.not_mem_nil, fun _ _ => rfl⟩
  | field :: rest, each :: later, row, final, eachOf, distinct, done => by
      rcases List.forall₂_cons.mp eachOf with ⟨listOf, restOf⟩
      rw [List.map_cons, List.nodup_cons] at distinct
      rcases (fanoutRow_element inside listOf later row final).mp done with ⟨value, isValue, done⟩
      rcases fanoutRow_ok inside restOf distinct.2 done with ⟨restGiven, restSame⟩
      constructor
      · intro other member
        rcases List.mem_cons.mp member with rfl | inRest
        · refine ⟨value, ?_, isValue⟩
          rw [restSame _ distinct.1, Arguments.get?_set_self]
        · exact restGiven other inRest
      · intro name notAmong
        rw [List.map_cons, List.mem_cons, not_or] at notAmong
        rw [restSame name notAmong.2, Arguments.get?_set_of_ne notAmong.1]

theorem fanoutRow_succeeds_iff [ReadsDecimals] {results : List StepResult} {length position : Nat}
    (inside : position < length) : ∀ {fields : Arguments} {lists : List FanoutList}
    {row : Arguments}, List.Forall₂ (ListOf results length) fields lists →
      (Succeeds (fanoutRow position lists row) ↔
        ∀ field ∈ fields, Succeeds (resolveArgument results field.1 (atElement position field.2)))
  | [], [], row, _ => ⟨fun _ _ member => absurd member List.not_mem_nil, fun _ => succeeds_ok row⟩
  | field :: rest, each :: later, row, eachOf => by
      rcases List.forall₂_cons.mp eachOf with ⟨listOf, restOf⟩
      rw [List.forall_mem_cons]
      constructor
      · rintro ⟨final, done⟩
        rcases (fanoutRow_element inside listOf later row final).mp done with
          ⟨value, isValue, done⟩
        exact ⟨⟨value, isValue⟩, (fanoutRow_succeeds_iff inside restOf).mp ⟨final, done⟩⟩
      · rintro ⟨⟨value, isValue⟩, restResolves⟩
        rcases (@fanoutRow_succeeds_iff _ _ _ _ inside _ _ (row.set field.1 value) restOf).mpr
          restResolves with ⟨final, done⟩
        exact ⟨final, (fanoutRow_element inside listOf later row final).mpr ⟨value, isValue, done⟩⟩

/-! ## All arguments -/

theorem resolveArguments_succeeds_iff {results : List StepResult} {arguments : Arguments} :
    Succeeds (resolveArguments results arguments) ↔
      ∀ field ∈ arguments, Succeeds (resolveArgument results field.1 field.2) := by
  induction arguments with
  | nil => exact ⟨fun _ _ member => absurd member List.not_mem_nil, fun _ => succeeds_ok _⟩
  | cons field rest alike =>
      rw [resolveArguments, List.forall_mem_cons, ← alike]
      exact succeeds_both

theorem resolveArguments_ok {results : List StepResult} : ∀ {arguments resolved : Arguments},
    resolveArguments results arguments = .ok resolved →
      resolved.map Prod.fst = arguments.map Prod.fst ∧
      ∀ name value, arguments.get? name = some value → ∃ new, resolved.get? name = some new ∧
        resolveArgument results name value = .ok new
  | [], resolved, done => by
      cases done
      exact ⟨rfl, fun _ _ found => by cases found⟩
  | (key, value) :: rest, resolved, done => by
      simp only [resolveArguments, bind_eq_ok, pure_eq_ok] at done
      rcases done with ⟨first, isFirst, later, areLater, rfl⟩
      rcases resolveArguments_ok areLater with ⟨names, byName⟩
      apply And.intro
      · rw [List.map_cons, List.map_cons, names]
      · intro name given found
        by_cases isKey : key = name
        · subst isKey
          have isGiven : value = given := by simpa [Arguments.get?] using found
          exact ⟨first, by simp [Arguments.get?], isGiven ▸ isFirst⟩
        · have inRest : Arguments.get? rest name = some given := by
            simpa [Arguments.get?, isKey] using found
          rcases byName name given inRest with ⟨new, isNew, resolves⟩
          exact ⟨new, by simpa [Arguments.get?, isKey] using isNew, resolves⟩

theorem resolveArguments_get?_none {results : List StepResult} {arguments resolved : Arguments}
    (done : resolveArguments results arguments = .ok resolved) {name : String}
    (absent : arguments.get? name = none) : resolved.get? name = none := by
  rw [Option.eq_none_iff_forall_ne_some]
  intro value found
  have named := Arguments.get?_isSome_iff.mp ⟨value, found⟩
  rw [(resolveArguments_ok done).1] at named
  rcases Arguments.get?_isSome_iff.mpr named with ⟨given, isGiven⟩
  rw [absent] at isGiven
  cases isGiven

theorem get?_elementArguments (position : Nat) (arguments : Arguments) (name : String) :
    (elementArguments position arguments).get? name =
      (arguments.get? name).map (atElement position) := by
  rw [elementArguments, Arguments.get?, Arguments.get?, List.find?_map, Option.map_map,
    Option.map_map]
  rfl

omit [PythonText] in
/-- In a `dict`, every entry is found under its name. -/
theorem get?_of_mem {arguments : Arguments} (distinct : (arguments.map Prod.fst).Nodup)
    {name : String} {value : Value} (member : (name, value) ∈ arguments) :
    arguments.get? name = some value := by
  rcases Arguments.get?_isSome_iff.mpr (List.mem_map_of_mem member) with ⟨other, found⟩
  have isOther := Arguments.mem_of_get? found
  rw [found]
  exact congrArg some (congrArg Prod.snd (List.inj_on_of_nodup_map distinct isOther member rfl))

/-- The arguments that all elements share. -/
def sharedFields (arguments : Arguments) : Arguments :=
  arguments.filter fun field => (wildcard? field.2).isNone

theorem mem_sharedFields {arguments : Arguments} {field : String × Value} :
    field ∈ sharedFields arguments ↔ field ∈ arguments ∧ wildcard? field.2 = none := by
  rw [sharedFields, List.mem_filter, Option.isNone_iff_eq_none]

theorem mem_wildcardFields {arguments : Arguments} {field : String × Value} :
    field ∈ wildcardFields arguments ↔ field ∈ arguments ∧ (wildcard? field.2).isSome = true := by
  rw [wildcardFields, List.mem_filter]

/-- An element's arguments resolve when the shared ones and its own do. -/
theorem resolveArguments_element_succeeds_iff {results : List StepResult} {position : Nat}
    {arguments : Arguments} :
    Succeeds (resolveArguments results (elementArguments position arguments)) ↔
      Succeeds (resolveArguments results (sharedFields arguments)) ∧
      ∀ field ∈ wildcardFields arguments,
        Succeeds (resolveArgument results field.1 (atElement position field.2)) := by
  rw [resolveArguments_succeeds_iff, resolveArguments_succeeds_iff, elementArguments,
    List.forall_mem_map]
  constructor
  · intro all
    constructor
    · intro field member
      rcases mem_sharedFields.mp member with ⟨among, plain⟩
      have resolves := all field among
      rwa [atElement_of_none plain] at resolves
    · exact fun field member => all field (mem_wildcardFields.mp member).1
  · rintro ⟨shared, own⟩ field member
    cases isWildcard : wildcard? field.2 with
    | none =>
        rw [atElement_of_none isWildcard]
        exact shared field (mem_sharedFields.mpr ⟨member, isWildcard⟩)
    | some split => exact own field (mem_wildcardFields.mpr ⟨member, by rw [isWildcard]; rfl⟩)

/-- What `resolve_fanout_arguments` does once its lists are found. -/
theorem resolveFanoutArguments_eq {results : List StepResult} {arguments : Arguments}
    {length : Nat} (fans : hasFanout arguments = true)
    (runs : ∀ field ∈ arguments, (wildcard? field.2).isSome = true →
      RunsOver results length field.2) :
    ∃ lists, List.Forall₂ (ListOf results length) (wildcardFields arguments) lists ∧
      resolveFanoutArguments results arguments =
        (resolveArguments results (sharedFields arguments) >>= fun base =>
          (List.range length).mapM fun position => fanoutRow position lists base) := by
  rcases @fanoutLists_ok _ results length arguments none runs (fun _ isKnown => by
    cases isKnown) with
    ⟨lists, areLists, eachOf⟩
  refine ⟨lists, eachOf, ?_⟩
  have some : wildcardFields arguments ≠ [] := by
    rcases List.any_eq_true.mp fans with ⟨value, member, isWildcard⟩
    rcases List.mem_map.mp member with ⟨field, among, rfl⟩
    exact List.ne_nil_of_mem (mem_wildcardFields.mpr ⟨among, isWildcard⟩)
  cases isFields : wildcardFields arguments with
  | nil => exact absurd isFields some
  | cons field rest =>
      rw [isFields] at eachOf
      cases lists with
      | nil => cases eachOf
      | cons each later =>
          have isLength := (List.forall₂_cons.mp eachOf).1.2.1
          rw [resolveFanoutArguments, areLists]
          simp only [ok_bind, isLength]
          rfl

omit [PythonText] in
theorem raises_iff {α : Type} {result : Except String α} :
    (∃ message, result = .error message) ↔ ¬ Succeeds result := by
  cases result with
  | ok value =>
      apply iff_of_false
      · rintro ⟨message, raised⟩
        cases raised
      · exact fun fails => fails (succeeds_ok value)
  | error message => exact iff_of_true ⟨message, rfl⟩ (not_succeeds_error message)

/-- A row is what the arguments for its element resolve to. -/
theorem fanoutRow_agrees [ReadsDecimals] {results : List StepResult}
    {arguments base row : Arguments} {length position : Nat} {lists : List FanoutList}
    (distinct : (arguments.map Prod.fst).Nodup) (inside : position < length)
    (eachOf : List.Forall₂ (ListOf results length) (wildcardFields arguments) lists)
    (isBase : resolveArguments results (sharedFields arguments) = .ok base)
    (isRow : fanoutRow position lists base = .ok row) :
    ∃ plain, resolveArguments results (elementArguments position arguments) = .ok plain ∧
      ∀ name, row.get? name = plain.get? name := by
  have ownDistinct : ((wildcardFields arguments).map Prod.fst).Nodup :=
    distinct.sublist (List.filter_sublist.map _)
  have sharedDistinct : ((sharedFields arguments).map Prod.fst).Nodup :=
    distinct.sublist (List.filter_sublist.map _)
  rcases fanoutRow_ok inside eachOf ownDistinct isRow with ⟨own, kept⟩
  have resolves : Succeeds (resolveArguments results (elementArguments position arguments)) :=
    resolveArguments_element_succeeds_iff.mpr ⟨⟨base, isBase⟩,
      (fanoutRow_succeeds_iff inside eachOf).mp ⟨row, isRow⟩⟩
  rcases resolves with ⟨plain, isPlain⟩
  refine ⟨plain, isPlain, ?_⟩
  intro name
  have notOwn : (∀ value, arguments.get? name = some value → wildcard? value = none) →
      name ∉ (wildcardFields arguments).map Prod.fst := by
    intro plainly member
    rcases List.mem_map.mp member with ⟨field, isField, rfl⟩
    rcases mem_wildcardFields.mp isField with ⟨among, isWildcard⟩
    rw [plainly field.2 (get?_of_mem distinct among)] at isWildcard
    cases isWildcard
  cases given : arguments.get? name with
  | none =>
      have absent : (elementArguments position arguments).get? name = none := by
        rw [get?_elementArguments, given]
        rfl
      rw [resolveArguments_get?_none isPlain absent, kept name (notOwn fun value found => by
        rw [given] at found
        cases found)]
      apply resolveArguments_get?_none isBase
      rw [Option.eq_none_iff_forall_ne_some]
      intro value found
      have among := (mem_sharedFields.mp (Arguments.mem_of_get? found)).1
      rw [get?_of_mem distinct among] at given
      cases given
  | some value =>
      have isElement : (elementArguments position arguments).get? name =
          some (atElement position value) := by
        rw [get?_elementArguments, given]
        rfl
      rcases (resolveArguments_ok isPlain).2 name _ isElement with ⟨new, isNew, becomes⟩
      rw [isNew]
      cases isWildcard : wildcard? value with
      | none =>
          rw [kept name (notOwn fun other found => by
            rw [given] at found
            cases found
            exact isWildcard)]
          have isShared := get?_of_mem sharedDistinct
            (mem_sharedFields.mpr ⟨Arguments.mem_of_get? given, isWildcard⟩)
          rcases (resolveArguments_ok isBase).2 name value isShared with ⟨other, isOther, same⟩
          rw [atElement_of_none isWildcard] at becomes
          cases same.symm.trans becomes
          exact isOther
      | some split =>
          rcases own (name, value) (mem_wildcardFields.mpr ⟨Arguments.mem_of_get? given,
            by rw [isWildcard]; rfl⟩) with ⟨other, isOther, same⟩
          cases same.symm.trans becomes
          exact isOther

/-- Running over lists of one length is resolving the arguments for each position. -/
theorem resolveFanoutArguments_agrees [ReadsDecimals] {results : List StepResult}
    {arguments : Arguments} {length : Nat} (distinct : (arguments.map Prod.fst).Nodup)
    (fans : hasFanout arguments = true)
    (runs : ∀ field ∈ arguments, (wildcard? field.2).isSome = true →
      RunsOver results length field.2) :
    (∀ rows, resolveFanoutArguments results arguments = .ok rows → rows.length = length ∧
      ∀ position < length, ∃ row plain, rows[position]? = some row ∧
        resolveArguments results (elementArguments position arguments) = .ok plain ∧
        ∀ name, row.get? name = plain.get? name) ∧
    (0 < length → ((∃ message, resolveFanoutArguments results arguments = .error message) ↔
      ∃ position < length, ∃ message,
        resolveArguments results (elementArguments position arguments) = .error message)) := by
  rcases resolveFanoutArguments_eq fans runs with ⟨lists, eachOf, isFanout⟩
  rw [isFanout]
  constructor
  · intro rows done
    rcases bind_eq_ok.mp done with ⟨base, isBase, areRows⟩
    constructor
    · rw [length_of_mapM areRows, List.length_range]
    · intro position inside
      rcases getElem?_mapM areRows (List.getElem?_range inside) with ⟨row, found, isRow⟩
      rcases fanoutRow_agrees distinct inside eachOf isBase isRow with ⟨plain, isPlain, same⟩
      exact ⟨row, plain, found, isPlain, same⟩
  · intro some
    have eachSucceeds : Succeeds (resolveArguments results (sharedFields arguments) >>= fun base =>
          (List.range length).mapM fun position => fanoutRow position lists base) ↔
        ∀ position < length,
          Succeeds (resolveArguments results (elementArguments position arguments)) := by
      simp only [resolveArguments_element_succeeds_iff]
      rw [succeeds_bind]
      constructor
      · rintro ⟨base, isBase, rows⟩ position inside
        have rowSucceeds := succeeds_mapM_iff.mp rows position (List.mem_range.mpr inside)
        exact ⟨⟨base, isBase⟩, (fanoutRow_succeeds_iff inside eachOf).mp rowSucceeds⟩
      · intro all
        rcases (all 0 some).1 with ⟨base, isBase⟩
        refine ⟨base, isBase, succeeds_mapM_iff.mpr ?_⟩
        intro position member
        have inside := List.mem_range.mp member
        exact (fanoutRow_succeeds_iff inside eachOf).mpr (all position inside).2
    rw [raises_iff, eachSucceeds]
    simp only [raises_iff, not_forall, exists_prop]

end Resolving

/-! ## Moving what was listed -/

section Listed

/-- `int` of a text of decimal digits. -/
private def digitsText (text : String) : Option Int :=
  if text.toList ≠ [] ∧ ∀ char ∈ text.toList, char.isDigit = true then
    some ↑(Nat.ofDigitChars 10 text.toList 0)
  else
    none

@[reducible] private def digitsPythonText : PythonText :=
  { smallPythonText with int := digitsText }

attribute [local instance] digitsPythonText

private theorem digits_read : ReadsDecimals where
  int_toString number := by
    have digits : (toString number).toList = Nat.toDigits 10 number := Nat.toList_repr
    show digitsText (toString number) = _
    rw [digitsText, digits, if_pos, Nat.ofDigitChars_ten_toDigits]
    exact ⟨Nat.toDigits_ne_nil, fun char among =>
      Nat.isDigit_of_mem_toDigits (by decide) (by decide) among⟩

attribute [local instance] digits_read

private def listedRecord (id name itemType : String) : Value :=
  .object [("id", .string id), ("name", .string name), ("item_type", .string itemType)]

/-- A listing of two files, and the folder that was made. -/
private def listedResults : List StepResult :=
  [⟨0, "list_items", true, .object [("items", .list [listedRecord "1" "a" "FILE",
      listedRecord "2" "b" "FILE"]), ("total", .int 2)], none, false⟩,
    ⟨1, "create_folder", true, listedRecord "3" "c" "FOLDER", none, false⟩]

/-- Every item listed is moved into the folder. -/
private def moveListed : Arguments :=
  [("item_id", .object [("from", .int 0), ("path", .string "items.*.id")]),
    ("parent_id", .object [("from", .int 1), ("path", .string "id")])]

theorem resolveFanoutArguments_agrees_listed :
    (∀ rows, resolveFanoutArguments listedResults moveListed = .ok rows → rows.length = 2 ∧
      ∀ position < 2, ∃ row plain, rows[position]? = some row ∧
        resolveArguments listedResults (elementArguments position moveListed) = .ok plain ∧
        ∀ name, row.get? name = plain.get? name) ∧
    (0 < 2 → ((∃ message, resolveFanoutArguments listedResults moveListed = .error message) ↔
      ∃ position < 2, ∃ message,
        resolveArguments listedResults (elementArguments position moveListed) =
          .error message)) := by
  apply resolveFanoutArguments_agrees
  · decide
  · rfl
  · intro field member isWildcard
    rcases List.mem_cons.mp member with rfl | member
    · exact ⟨0, "items", "id", _, _, rfl, rfl, rfl, rfl⟩
    · cases List.mem_singleton.mp member
      cases isWildcard

end Listed

end CloudDrive
