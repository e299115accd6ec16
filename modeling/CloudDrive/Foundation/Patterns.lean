import Mathlib.Data.List.Basic

/-! # Text patterns

Patterns with word boundaries, the texts they match, and a backtracking matcher that
tries its ends in the order of a greedy regular expression. -/

namespace Patterns

inductive Pattern (α : Type u) where
  | one (among : α → Bool)
  | seq (first second : Pattern α)
  | plus (body : Pattern α)
  | times (count : Nat) (body : Pattern α)
  | boundary

section Words

variable {α : Type u} (isWord : α → Bool)

/-- Whether a word character follows, when `right` says it of what is after the text. -/
def firstEdge (text : List α) (right : Bool) : Bool :=
  match text with
  | [] => right
  | char :: _ => isWord char

/-- Whether a word character comes before, when `left` says it of what is before the
text. -/
def lastEdge (left : Bool) : List α → Bool
  | [] => left
  | char :: rest => lastEdge (isWord char) rest

/-- The pattern matches a text between two edges. -/
inductive Matches : Pattern α → Bool → List α → Bool → Prop
  | one {among : α → Bool} {left right : Bool} {char : α} :
      among char = true → Matches (.one among) left [char] right
  | seq {first second : Pattern α} {left right : Bool} {taken later : List α} :
      Matches first left taken (firstEdge isWord later right) →
      Matches second (lastEdge isWord left taken) later right →
      Matches (.seq first second) left (taken ++ later) right
  | last {body : Pattern α} {left right : Bool} {taken : List α} :
      Matches body left taken right → Matches (.plus body) left taken right
  | more {body : Pattern α} {left right : Bool} {taken later : List α} :
      Matches body left taken (firstEdge isWord later right) →
      Matches (.plus body) (lastEdge isWord left taken) later right →
      Matches (.plus body) left (taken ++ later) right
  | noTimes {body : Pattern α} {left right : Bool} : Matches (.times 0 body) left [] right
  | oneMore {body : Pattern α} {count : Nat} {left right : Bool} {taken later : List α} :
      Matches body left taken (firstEdge isWord later right) →
      Matches (.times count body) (lastEdge isWord left taken) later right →
      Matches (.times (count + 1) body) left (taken ++ later) right
  | boundary {left right : Bool} : left ≠ right → Matches .boundary left [] right

/-- Some part of the text matches, where it stands. -/
def Found (pattern : Pattern α) (text : List α) : Prop :=
  ∃ before taken after, text = before ++ (taken ++ after) ∧
    Matches isWord pattern (lastEdge isWord false before) taken (firstEdge isWord after false)

/-! ## The matcher -/

/-- A place in a text: whether a word character comes before it, and what comes after. -/
structure Place (α : Type u) where
  left : Bool
  rest : List α

/-- Greedy repetition: one more round first, and the end reached so far last. -/
def plusEnds (next : Place α → List (Place α)) : Nat → Place α → List (Place α)
  | 0, place => next place
  | fuel + 1, place => (next place).flatMap fun reached =>
      if reached.rest.length < place.rest.length then
        plusEnds next fuel reached ++ [reached]
      else
        [reached]

def timesEnds (next : Place α → List (Place α)) : Nat → Place α → List (Place α)
  | 0, place => [place]
  | count + 1, place => (next place).flatMap (timesEnds next count)

/-- The places where a match from a place can end, in the order they are tried. -/
def ends : Pattern α → Place α → List (Place α)
  | .one among, place =>
      match place.rest with
      | [] => []
      | char :: rest => if among char then [⟨isWord char, rest⟩] else []
  | .seq first second, place => (ends first place).flatMap (ends second)
  | .plus body, place => plusEnds (ends body) place.rest.length place
  | .times count body, place => timesEnds (ends body) count place
  | .boundary, place =>
      if place.left ≠ firstEdge isWord place.rest false then [place] else []

/-- `re.sub`, for a pattern that matches no empty text. -/
def subFrom (pattern : Pattern α) (new : List α) : Nat → Place α → List α
  | 0, _ => []
  | fuel + 1, place =>
      match (ends isWord pattern place).head? with
      | some reached => new ++ subFrom pattern new fuel reached
      | none =>
          match place.rest with
          | [] => []
          | char :: rest => char :: subFrom pattern new fuel ⟨isWord char, rest⟩

def sub (pattern : Pattern α) (new text : List α) : List α :=
  subFrom isWord pattern new text.length ⟨false, text⟩

/-! ## Edges -/

variable {isWord}

theorem lastEdge_append (left : Bool) : ∀ (first second : List α),
    lastEdge isWord left (first ++ second) = lastEdge isWord (lastEdge isWord left first) second
  | [], _ => rfl
  | char :: first, second => lastEdge_append (isWord char) first second

theorem firstEdge_append (first second : List α) (right : Bool) :
    firstEdge isWord (first ++ second) right =
      firstEdge isWord first (firstEdge isWord second right) := by
  cases first <;> rfl

/-! ## What the matcher finds -/

variable (isWord) in
/-- A match of the pattern leads from one place to the other. -/
inductive Leads (pattern : Pattern α) : Place α → Place α → Prop
  | matched {left : Bool} {taken rest : List α} :
      Matches isWord pattern left taken (firstEdge isWord rest false) →
      Leads pattern ⟨left, taken ++ rest⟩ ⟨lastEdge isWord left taken, rest⟩

/-- Two matches one after the other, as the constructors of `Matches` take them. -/
theorem Leads.join {first second whole : Pattern α} {place middle reached : Place α}
    (joins : ∀ {left right : Bool} {taken later : List α},
      Matches isWord first left taken (firstEdge isWord later right) →
      Matches isWord second (lastEdge isWord left taken) later right →
      Matches isWord whole left (taken ++ later) right)
    (firstLeads : Leads isWord first place middle)
    (secondLeads : Leads isWord second middle reached) : Leads isWord whole place reached := by
  cases secondLeads with
  | @matched middleLeft later rest laterMatched =>
      cases firstLeads with
      | @matched left taken _ matched =>
          rw [firstEdge_append] at matched
          rw [← List.append_assoc, ← lastEdge_append]
          exact .matched (joins matched laterMatched)

/-- The first of two matches one after the other. -/
theorem leads_first {first : Pattern α} {left : Bool} {taken later rest : List α}
    (matched : Matches isWord first left taken
      (firstEdge isWord later (firstEdge isWord rest false))) :
    Leads isWord first ⟨left, (taken ++ later) ++ rest⟩
      ⟨lastEdge isWord left taken, later ++ rest⟩ := by
  rw [List.append_assoc]
  exact .matched ((firstEdge_append later rest false).symm ▸ matched)

/-- The second of two matches one after the other. -/
theorem leads_second {second : Pattern α} {left : Bool} {taken later rest : List α}
    (matched : Matches isWord second (lastEdge isWord left taken) later
      (firstEdge isWord rest false)) :
    Leads isWord second ⟨lastEdge isWord left taken, later ++ rest⟩
      ⟨lastEdge isWord left (taken ++ later), rest⟩ := by
  rw [lastEdge_append]
  exact .matched matched

theorem Leads.once {body : Pattern α} {place reached : Place α}
    (leads : Leads isWord body place reached) : Leads isWord (.plus body) place reached := by
  cases leads with
  | matched matched => exact .matched (.last matched)

/-- `next` lists the ends of the matches of the body. -/
def Lists (isWord : α → Bool) (body : Pattern α) (next : Place α → List (Place α)) : Prop :=
  ∀ place reached, reached ∈ next place ↔ Leads isWord body place reached

theorem plusEnds_sound {body : Pattern α} {next : Place α → List (Place α)}
    (lists : Lists isWord body next) : ∀ (fuel : Nat) {place reached : Place α},
      reached ∈ plusEnds next fuel place → Leads isWord (.plus body) place reached
  | 0, place, reached, member => ((lists place reached).mp member).once
  | fuel + 1, place, reached, member => by
      rw [plusEnds, List.mem_flatMap] at member
      rcases member with ⟨middle, isNext, member⟩
      have leads := (lists place middle).mp isNext
      by_cases shorter : middle.rest.length < place.rest.length
      · rw [if_pos shorter, List.mem_append, List.mem_singleton] at member
        rcases member with later | rfl
        · exact leads.join .more (plusEnds_sound lists fuel later)
        · exact leads.once
      · rw [if_neg shorter, List.mem_singleton] at member
        exact member ▸ leads.once

theorem mem_plusEnds_once {body : Pattern α} {next : Place α → List (Place α)}
    (lists : Lists isWord body next) {place reached : Place α}
    (leads : Leads isWord body place reached) : ∀ fuel, reached ∈ plusEnds next fuel place
  | 0 => (lists place reached).mpr leads
  | fuel + 1 => by
      rw [plusEnds, List.mem_flatMap]
      apply Exists.intro reached
      apply And.intro ((lists place reached).mpr leads)
      split
      · exact List.mem_append_right _ (List.mem_singleton_self _)
      · exact List.mem_singleton_self _

theorem plusEnds_complete {body pattern : Pattern α} {next : Place α → List (Place α)}
    (lists : Lists isWord body next) {left right : Bool} {taken : List α}
    (matched : Matches isWord pattern left taken right) (isPlus : pattern = .plus body) :
    ∀ (rest : List α) (fuel : Nat), right = firstEdge isWord rest false →
      (taken ++ rest).length ≤ fuel →
      ⟨lastEdge isWord left taken, rest⟩ ∈ plusEnds next fuel ⟨left, taken ++ rest⟩ := by
  induction matched with
  | last once =>
      cases isPlus
      intro rest fuel edge _
      exact mem_plusEnds_once lists (.matched (edge ▸ once)) fuel
  | @more _ left right taken later once more _ induction =>
      cases isPlus
      intro rest fuel edge enough
      have leads := leads_first (edge ▸ once)
      rw [lastEdge_append]
      cases taken with
      | nil => exact induction rfl rest fuel edge enough
      | cons char taken =>
          cases fuel with
          | zero => cases enough
          | succ fuel =>
              simp only [List.cons_append, List.length_cons, List.length_append] at enough
              rw [plusEnds, List.mem_flatMap]
              apply Exists.intro ⟨lastEdge isWord left (char :: taken), later ++ rest⟩
              apply And.intro ((lists _ _).mpr leads)
              rw [if_pos]
              · apply List.mem_append_left
                apply induction rfl rest fuel edge
                rw [List.length_append]
                omega
              · simp only [List.cons_append, List.length_cons, List.length_append]
                omega
  | one | seq | noTimes | oneMore | boundary => cases isPlus

theorem mem_timesEnds {body : Pattern α} {next : Place α → List (Place α)}
    (lists : Lists isWord body next) : ∀ (count : Nat),
      Lists isWord (.times count body) (timesEnds next count)
  | 0, place, reached => by
      rw [timesEnds, List.mem_singleton]
      constructor
      · intro same
        rw [same]
        exact @Leads.matched _ _ _ _ [] _ .noTimes
      · intro leads
        cases leads with
        | matched matched =>
            cases matched
            rfl
  | count + 1, place, reached => by
      rw [timesEnds, List.mem_flatMap]
      constructor
      · intro member
        rcases member with ⟨middle, isNext, later⟩
        exact ((lists place middle).mp isNext).join .oneMore
          ((mem_timesEnds lists count middle reached).mp later)
      · intro leads
        cases leads with
        | matched matched =>
            cases matched with
            | oneMore once more =>
                exact ⟨_, (lists _ _).mpr (leads_first once),
                  (mem_timesEnds lists count _ _).mpr (leads_second more)⟩

theorem ends_one {among : α → Bool} {left : Bool} {char : α} {rest : List α} :
    ends isWord (.one among) ⟨left, char :: rest⟩ =
      if among char then [⟨isWord char, rest⟩] else [] := rfl

/-- The matcher finds the ends of all matches. -/
theorem mem_ends : ∀ (pattern : Pattern α), Lists isWord pattern (ends isWord pattern)
  | .one among, place, reached => by
      rcases place with ⟨left, rest⟩
      constructor
      · intro member
        cases rest with
        | nil => cases member
        | cons char rest =>
            rw [ends_one] at member
            by_cases allowed : among char = true
            · rw [if_pos allowed, List.mem_singleton] at member
              rw [member]
              exact @Leads.matched _ _ _ _ [char] _ (.one allowed)
            · rw [if_neg allowed] at member
              cases member
      · intro leads
        cases leads with
        | matched matched =>
            cases matched with
            | one allowed =>
                rw [List.singleton_append, ends_one, if_pos allowed]
                exact List.mem_singleton_self _
  | .seq first second, place, reached => by
      rw [ends, List.mem_flatMap]
      constructor
      · intro member
        rcases member with ⟨middle, isNext, later⟩
        exact ((mem_ends first place middle).mp isNext).join .seq
          ((mem_ends second middle reached).mp later)
      · intro leads
        cases leads with
        | matched matched =>
            cases matched with
            | seq once more =>
                exact ⟨_, (mem_ends first _ _).mpr (leads_first once),
                  (mem_ends second _ _).mpr (leads_second more)⟩
  | .plus body, place, reached => by
      constructor
      · exact plusEnds_sound (mem_ends body) place.rest.length
      · intro leads
        cases leads with
        | matched matched =>
            exact plusEnds_complete (mem_ends body) matched rfl _ _ rfl (Nat.le_refl _)
  | .times count body, place, reached => mem_timesEnds (mem_ends body) count place reached
  | .boundary, place, reached => by
      rw [ends]
      constructor
      · intro member
        by_cases differs : place.left ≠ firstEdge isWord place.rest false
        · rw [if_pos differs, List.mem_singleton] at member
          rw [member]
          exact @Leads.matched _ _ _ _ [] _ (.boundary differs)
        · rw [if_neg differs] at member
          cases member
      · intro leads
        cases leads with
        | matched matched =>
            cases matched with
            | boundary differs =>
                rw [List.nil_append, if_pos differs]
                exact List.mem_singleton_self _

/-! ## What a match is made of -/

def Pattern.Over (allowed : α → Prop) : Pattern α → Prop
  | .one among => ∀ char, among char = true → allowed char
  | .seq first second => first.Over allowed ∧ second.Over allowed
  | .plus body => body.Over allowed
  | .times _ body => body.Over allowed
  | .boundary => True

theorem Matches.stays {allowed : α → Prop} {pattern : Pattern α} {left right : Bool}
    {taken : List α} (matched : Matches isWord pattern left taken right) :
    pattern.Over allowed → ∀ char ∈ taken, allowed char := by
  induction matched with
  | one isAmong =>
      intro stays char member
      exact List.mem_singleton.mp member ▸ stays _ isAmong
  | seq _ _ firstInduction secondInduction =>
      intro stays char member
      rcases List.mem_append.mp member with inFirst | inSecond
      · exact firstInduction stays.1 char inFirst
      · exact secondInduction stays.2 char inSecond
  | last _ induction => exact induction
  | more _ _ firstInduction restInduction | oneMore _ _ firstInduction restInduction =>
      intro stays char member
      rcases List.mem_append.mp member with inFirst | inRest
      · exact firstInduction stays char inFirst
      · exact restInduction stays char inRest
  | noTimes | boundary =>
      intro _ char member
      cases member

/-- The pattern takes at least one character. -/
def Pattern.Takes : Pattern α → Prop
  | .one _ => True
  | .seq first second => first.Takes ∨ second.Takes
  | .plus body => body.Takes
  | .times count body => count ≠ 0 ∧ body.Takes
  | .boundary => False

theorem Matches.ne_nil {pattern : Pattern α} {left right : Bool} {taken : List α}
    (matched : Matches isWord pattern left taken right) : pattern.Takes → taken ≠ [] := by
  induction matched with
  | one => exact fun _ => List.cons_ne_nil _ _
  | seq _ _ firstInduction secondInduction =>
      intro takes empty
      rcases List.append_eq_nil_iff.mp empty with ⟨firstEmpty, secondEmpty⟩
      rcases takes with first | second
      · exact firstInduction first firstEmpty
      · exact secondInduction second secondEmpty
  | last _ induction => exact induction
  | more _ _ firstInduction _ =>
      exact fun takes empty => firstInduction takes (List.append_eq_nil_iff.mp empty).1
  | noTimes => exact fun takes => absurd rfl takes.1
  | oneMore _ _ firstInduction _ =>
      exact fun takes empty => firstInduction takes.2 (List.append_eq_nil_iff.mp empty).1
  | boundary => exact fun takes => takes.elim

def Pattern.Unbounded : Pattern α → Prop
  | .one _ => True
  | .seq first second => first.Unbounded ∧ second.Unbounded
  | .plus body => body.Unbounded
  | .times _ body => body.Unbounded
  | .boundary => False

/-- Without a word boundary in the pattern, the edges play no part. -/
theorem Matches.anyEdges {pattern : Pattern α} {left right : Bool} {taken : List α}
    (matched : Matches isWord pattern left taken right) :
    pattern.Unbounded → ∀ otherLeft otherRight,
      Matches isWord pattern otherLeft taken otherRight := by
  induction matched with
  | one isAmong => exact fun _ _ _ => .one isAmong
  | seq _ _ firstInduction secondInduction =>
      intro unbounded _ _
      exact .seq (firstInduction unbounded.1 _ _) (secondInduction unbounded.2 _ _)
  | last _ induction => exact fun unbounded _ _ => .last (induction unbounded _ _)
  | more _ _ firstInduction restInduction =>
      intro unbounded _ _
      exact .more (firstInduction unbounded _ _) (restInduction unbounded _ _)
  | noTimes => exact fun _ _ _ => .noTimes
  | oneMore _ _ firstInduction restInduction =>
      intro unbounded _ _
      exact .oneMore (firstInduction unbounded _ _) (restInduction unbounded _ _)
  | boundary => exact fun unbounded => unbounded.elim

/-! ## Substitution -/

theorem firstEnd_none {pattern : Pattern α} {left : Bool} {text : List α}
    (none : (ends isWord pattern ⟨left, text⟩).head? = none) {taken after : List α}
    (split : text = taken ++ after) :
    ¬ Matches isWord pattern left taken (firstEdge isWord after false) := by
  intro matched
  have leads : Leads isWord pattern ⟨left, text⟩ ⟨lastEdge isWord left taken, after⟩ :=
    split ▸ .matched matched
  have isEnd := (mem_ends pattern ⟨left, text⟩ _).mpr leads
  rw [List.head?_eq_none_iff.mp none] at isEnd
  cases isEnd

theorem firstEnd_some {pattern : Pattern α} {place reached : Place α}
    (found : (ends isWord pattern place).head? = some reached) :
    Leads isWord pattern place reached :=
  (mem_ends pattern place reached).mp (List.mem_of_head? found)

/-! ## Searching -/

variable (isWord) in
def searchFrom (pattern : Pattern α) : Bool → List α → Bool
  | left, [] => (ends isWord pattern ⟨left, []⟩).head?.isSome
  | left, char :: rest =>
      (ends isWord pattern ⟨left, char :: rest⟩).head?.isSome ||
        searchFrom pattern (isWord char) rest

variable (isWord) in
/-- `re.search`, as a test. -/
def search (pattern : Pattern α) (text : List α) : Bool :=
  searchFrom isWord pattern false text

theorem firstEnd_isSome {pattern : Pattern α} {left : Bool} {text : List α} :
    (ends isWord pattern ⟨left, text⟩).head?.isSome = true ↔ ∃ taken after,
      text = taken ++ after ∧ Matches isWord pattern left taken (firstEdge isWord after false) := by
  constructor
  · intro found
    rcases Option.isSome_iff_exists.mp found with ⟨reached, isFirst⟩
    generalize isPlace : (⟨left, text⟩ : Place α) = place at isFirst
    cases firstEnd_some isFirst with
    | matched matched =>
        cases isPlace
        exact ⟨_, _, rfl, matched⟩
  · intro matchedHere
    rcases matchedHere with ⟨taken, after, split, matched⟩
    cases found : (ends isWord pattern ⟨left, text⟩).head? with
    | none => exact absurd matched (firstEnd_none found split)
    | some reached => rfl

theorem searchFrom_iff {pattern : Pattern α} : ∀ {left : Bool} {text : List α},
    searchFrom isWord pattern left text = true ↔ ∃ before taken after,
      text = before ++ (taken ++ after) ∧
        Matches isWord pattern (lastEdge isWord left before) taken (firstEdge isWord after false)
  | left, [] => by
      rw [searchFrom, firstEnd_isSome]
      constructor
      · intro matchedHere
        exact ⟨[], matchedHere⟩
      · intro found
        rcases found with ⟨before, taken, after, split, matched⟩
        rcases List.append_eq_nil_iff.mp split.symm with ⟨rfl, empty⟩
        exact ⟨taken, after, empty.symm, matched⟩
  | left, char :: rest => by
      rw [searchFrom, Bool.or_eq_true, firstEnd_isSome, searchFrom_iff]
      constructor
      · intro either
        rcases either with here | ⟨before, taken, after, split, matched⟩
        · exact ⟨[], here⟩
        · exact ⟨char :: before, taken, after, congrArg _ split, matched⟩
      · intro found
        rcases found with ⟨before, taken, after, split, matched⟩
        cases before with
        | nil => exact .inl ⟨taken, after, split, matched⟩
        | cons first before =>
            rcases List.cons.inj split with ⟨rfl, isRest⟩
            exact .inr ⟨before, taken, after, isRest, matched⟩

theorem search_iff {pattern : Pattern α} {text : List α} :
    search isWord pattern text = true ↔ Found isWord pattern text :=
  searchFrom_iff

/-! ## Replacing -/

theorem subFrom_eq_self {pattern : Pattern α} {new : List α} :
    ∀ (fuel : Nat) {left : Bool} {rest : List α}, rest.length ≤ fuel →
      (∀ before taken after, rest = before ++ (taken ++ after) →
        ¬ Matches isWord pattern (lastEdge isWord left before) taken
          (firstEdge isWord after false)) →
      subFrom isWord pattern new fuel ⟨left, rest⟩ = rest
  | 0, _, rest, enough, _ => (List.length_eq_zero_iff.mp (Nat.le_zero.mp enough)).symm
  | fuel + 1, left, rest, enough, absent => by
      rw [subFrom]
      cases found : (ends isWord pattern ⟨left, rest⟩).head? with
      | some reached =>
          cases firstEnd_some found with
          | @matched _ taken after matched => exact absurd matched (absent [] taken after rfl)
      | none =>
          cases rest with
          | nil => rfl
          | cons char rest =>
              apply congrArg (char :: ·)
              apply subFrom_eq_self fuel (Nat.le_of_succ_le_succ enough)
              intro before taken after split
              exact absent (char :: before) taken after (congrArg (char :: ·) split)

/-- Where nothing is found, nothing is replaced. -/
theorem sub_eq_self {pattern : Pattern α} {new text : List α}
    (absent : ¬ Found isWord pattern text) : sub isWord pattern new text = text :=
  subFrom_eq_self text.length (Nat.le_refl _) fun before taken after split matched =>
    absent ⟨before, taken, after, split, matched⟩

section Bracketed

/-! A replacement between two brackets that no match contains. What the result shows
between brackets stood in the text. -/

variable {pattern : Pattern α} {allowed : α → Prop} {opening closing : α} {word : List α}

variable (isWord pattern opening) in
/-- The edges after a part of the result and after the same part of the text agree, or
the next match was replaced there. -/
def RightKept (left : Bool) (taken after later : List α) : Prop :=
  firstEdge isWord after false = firstEdge isWord later false ∨
    ∃ hit rest, Matches isWord pattern (lastEdge isWord left taken) hit
      (firstEdge isWord rest false)

variable (isWord pattern closing) in
/-- The edges before a part of the result and before the same part of the text agree, or
a match was replaced there. -/
def LeftKept (leftOut left : Bool) (rest : List α) : Prop :=
  leftOut = left ∨ ∃ hitLeft hit,
    Matches isWord pattern hitLeft hit (firstEdge isWord rest false)

theorem append_split {first second third fourth : List α}
    (same : first ++ second = third ++ fourth) :
    (∃ inner, third = first ++ inner ∧ second = inner ++ fourth) ∨
      ∃ inner, inner ≠ [] ∧ first = third ++ inner ∧ fourth = inner ++ second := by
  rcases List.append_eq_append_iff.mp same with ⟨inner, isThird, isSecond⟩ | ⟨inner, isFirst, rest⟩
  · exact .inl ⟨inner, isThird, isSecond⟩
  · cases inner with
    | nil => exact .inl ⟨[], by rw [isFirst, List.append_nil, List.append_nil], rest.symm⟩
    | cons char inner => exact .inr ⟨char :: inner, List.cons_ne_nil _ _, isFirst, rest⟩

theorem subFrom_start (opened : ¬ allowed opening) :
    ∀ (fuel : Nat) {left : Bool} {rest taken after : List α}, rest.length ≤ fuel →
      (∀ char ∈ taken, allowed char) →
      subFrom isWord pattern (opening :: (word ++ [closing])) fuel ⟨left, rest⟩ =
        taken ++ after →
      ∃ later, rest = taken ++ later ∧ RightKept isWord pattern left taken after later
  | 0, left, rest, taken, after, enough, _, result => by
      have nothing := List.length_eq_zero_iff.mp (Nat.le_zero.mp enough)
      rcases List.append_eq_nil_iff.mp result.symm with ⟨rfl, rfl⟩
      exact ⟨[], by rw [nothing, List.append_nil], .inl rfl⟩
  | fuel + 1, left, rest, taken, after, enough, stays, result => by
      rw [subFrom] at result
      cases found : (ends isWord pattern ⟨left, rest⟩).head? with
      | some reached =>
          rw [found] at result
          cases taken with
          | nil =>
              cases firstEnd_some found with
              | @matched _ hit rest matched => exact ⟨hit ++ rest, rfl, .inr ⟨hit, rest, matched⟩⟩
          | cons char taken =>
              rcases List.cons.inj result with ⟨rfl, _⟩
              exact absurd (stays _ List.mem_cons_self) opened
      | none =>
          rw [found] at result
          cases rest with
          | nil =>
              rcases List.append_eq_nil_iff.mp result.symm with ⟨rfl, rfl⟩
              exact ⟨[], rfl, .inl rfl⟩
          | cons char rest =>
              cases taken with
              | nil =>
                  rw [List.nil_append] at result
                  exact ⟨char :: rest, rfl, .inl (result ▸ rfl)⟩
              | cons first taken =>
                  rcases List.cons.inj result with ⟨rfl, restResult⟩
                  rcases subFrom_start opened fuel (Nat.le_of_succ_le_succ enough)
                    (fun other member => stays other (List.mem_cons_of_mem _ member)) restResult
                    with ⟨later, isRest, kept⟩
                  exact ⟨later, congrArg (char :: ·) isRest, kept⟩

/-- A part of a bracketed replacement and of what follows that has no bracket is inside
the brackets. -/
theorem inside_of_part (opened : ¬ allowed opening) (closed : ¬ allowed closing)
    {before inner taken after out : List α}
    (isNew : opening :: (word ++ [closing]) = before ++ inner) (starts : inner ≠ [])
    (stays : ∀ char ∈ taken, allowed char) (same : taken ++ after = inner ++ out) :
    ∀ char ∈ taken, char ∈ word := by
  have closes : closing ∈ inner := by
    have lastIs := congrArg List.getLast? isNew
    rw [List.getLast?_append_of_ne_nil _ starts, ← List.cons_append,
      List.getLast?_concat] at lastIs
    exact List.mem_of_getLast? lastIs.symm
  have within : ∀ char ∈ taken, char ∈ inner := by
    rcases List.append_eq_append_iff.mp same with ⟨more, rfl, _⟩ | ⟨more, rfl, _⟩
    · exact fun char member => List.mem_append_left _ member
    · exact absurd (stays closing (List.mem_append_left _ closes)) closed
  intro char member
  have inNew : char ∈ opening :: (word ++ [closing]) :=
    isNew ▸ List.mem_append_right _ (within char member)
  rcases List.mem_cons.mp inNew with rfl | inRest
  · exact absurd (stays _ member) opened
  · rcases List.mem_append.mp inRest with inWord | isClosing
    · exact inWord
    · rw [List.mem_singleton.mp isClosing] at member
      exact absurd (stays _ member) closed

/-- A part of the result without brackets is inside a replacement, or stood in the text
where no match begins. -/
theorem subFrom_part (takes : pattern.Takes) (opened : ¬ allowed opening)
    (closed : ¬ allowed closing) :
    ∀ (fuel : Nat) {leftOut left : Bool} {rest before taken after : List α},
      rest.length ≤ fuel → (∀ char ∈ taken, allowed char) → taken ≠ [] →
      LeftKept isWord pattern leftOut left rest →
      subFrom isWord pattern (opening :: (word ++ [closing])) fuel ⟨left, rest⟩ =
        before ++ (taken ++ after) →
      (∀ char ∈ taken, char ∈ word) ∨
      ∃ earlier later, rest = earlier ++ (taken ++ later) ∧
        ¬ Matches isWord pattern (lastEdge isWord left earlier) taken
          (firstEdge isWord later false) ∧
        LeftKept isWord pattern (lastEdge isWord leftOut before) (lastEdge isWord left earlier)
          (taken ++ later) ∧
        RightKept isWord pattern (lastEdge isWord left earlier) taken after later
  | 0, leftOut, left, rest, before, taken, after, enough, _, nonempty, _, result => by
      rcases List.append_eq_nil_iff.mp result.symm with ⟨_, same⟩
      exact absurd (List.append_eq_nil_iff.mp same).1 nonempty
  | fuel + 1, leftOut, left, rest, before, taken, after, enough, stays, nonempty, leftKept,
      result => by
      have whole := result
      rw [subFrom] at result
      cases found : (ends isWord pattern ⟨left, rest⟩).head? with
      | some reached =>
          rw [found] at result
          cases firstEnd_some found with
          | @matched _ hit rest matched =>
              have shorter : rest.length ≤ fuel := by
                have positive := List.length_pos_iff.mpr (matched.ne_nil takes)
                rw [List.length_append] at enough
                omega
              have replaced : LeftKept isWord pattern
                  (lastEdge isWord leftOut (opening :: (word ++ [closing])))
                  (lastEdge isWord left hit) rest := .inr ⟨left, hit, matched⟩
              rcases append_split result with ⟨inner, isBefore, isOut⟩ | ⟨inner, starts, isNew, same⟩
              · rcases subFrom_part takes opened closed fuel shorter stays nonempty replaced isOut
                  with inWord | ⟨earlier, later, rfl, absent, leftAgrees, rightAgrees⟩
                · exact .inl inWord
                · right
                  rw [isBefore]
                  rw [← lastEdge_append] at absent
                  rw [← lastEdge_append, ← lastEdge_append] at leftAgrees
                  rw [← lastEdge_append] at rightAgrees
                  exact ⟨hit ++ earlier, later, (List.append_assoc _ _ _).symm, absent,
                    leftAgrees, rightAgrees⟩
              · exact .inl (inside_of_part opened closed isNew starts stays same)
      | none =>
          rw [found] at result
          cases rest with
          | nil =>
              rcases List.append_eq_nil_iff.mp result.symm with ⟨_, same⟩
              exact absurd (List.append_eq_nil_iff.mp same).1 nonempty
          | cons char rest =>
              cases before with
              | nil =>
                  right
                  rcases subFrom_start opened (fuel + 1) enough stays whole with
                    ⟨later, isRest, rightAgrees⟩
                  rw [isRest] at leftKept found
                  exact ⟨[], later, isRest, firstEnd_none found rfl, leftKept, rightAgrees⟩
              | cons first before =>
                  rcases List.cons.inj result with ⟨rfl, restResult⟩
                  rcases subFrom_part takes opened closed fuel (Nat.le_of_succ_le_succ enough)
                    stays nonempty (.inl rfl) restResult with
                    inWord | ⟨earlier, later, isRest, absent, leftAgrees, rightAgrees⟩
                  · exact .inl inWord
                  · right
                    exact ⟨char :: earlier, later, congrArg (char :: ·) isRest, absent,
                      leftAgrees, rightAgrees⟩

/-- Every match of `other` has a character that no replacement has between its
brackets. -/
def Foreign (isWord : α → Bool) (word : List α) (other : Pattern α) : Prop :=
  ∀ {left right : Bool} {taken : List α}, Matches isWord other left taken right →
    ∃ char ∈ taken, char ∉ word

/-- What is found in the result stood in the text, where no match begins. -/
theorem part_of_found {other : Pattern α} {text : List α} (takes : pattern.Takes)
    (opened : ¬ allowed opening) (closed : ¬ allowed closing) (stays : other.Over allowed)
    (otherTakes : other.Takes) (foreign : Foreign isWord word other)
    (found : Found isWord other (sub isWord pattern (opening :: (word ++ [closing])) text)) :
    ∃ leftOut rightOut earlier taken later, Matches isWord other leftOut taken rightOut ∧
      text = earlier ++ (taken ++ later) ∧
      ¬ Matches isWord pattern (lastEdge isWord false earlier) taken
        (firstEdge isWord later false) ∧
      LeftKept isWord pattern leftOut (lastEdge isWord false earlier) (taken ++ later) ∧
      (rightOut = firstEdge isWord later false ∨ ∃ hit rest,
        Matches isWord pattern (lastEdge isWord (lastEdge isWord false earlier) taken) hit
          (firstEdge isWord rest false)) := by
  rcases found with ⟨before, taken, after, split, matched⟩
  rcases subFrom_part takes opened closed text.length (Nat.le_refl _) (matched.stays stays)
    (matched.ne_nil otherTakes) (.inl rfl) split with
    inWord | ⟨earlier, later, isText, absent, leftKept, rightKept⟩
  · rcases foreign matched with ⟨char, member, outside⟩
    exact absurd (inWord char member) outside
  · exact ⟨_, _, earlier, taken, later, matched, isText, absent, leftKept, rightKept⟩

/-- After the substitution nothing of a pattern without word boundaries is found, if it is
the one that was replaced or was not found before. -/
theorem not_found_sub {other : Pattern α} {text : List α} (takes : pattern.Takes)
    (opened : ¬ allowed opening) (closed : ¬ allowed closing) (stays : other.Over allowed)
    (otherTakes : other.Takes) (foreign : Foreign isWord word other)
    (unbounded : other.Unbounded) (settled : other = pattern ∨ ¬ Found isWord other text) :
    ¬ Found isWord other (sub isWord pattern (opening :: (word ++ [closing])) text) := by
  intro found
  rcases part_of_found takes opened closed stays otherTakes foreign found with
    ⟨_, _, earlier, taken, later, matched, isText, absent, _⟩
  have inText := matched.anyEdges unbounded (lastEdge isWord false earlier)
    (firstEdge isWord later false)
  rcases settled with rfl | nowhere
  · exact absent inText
  · exact nowhere ⟨earlier, taken, later, isText, inText⟩

/-- Every match begins and ends with a word character and has none beside it. -/
structure Whole (isWord : α → Bool) (pattern : Pattern α) : Prop where
  left : ∀ {left right : Bool} {taken : List α},
    Matches isWord pattern left taken right → left = false
  right : ∀ {left right : Bool} {taken : List α},
    Matches isWord pattern left taken right → right = false
  first : ∀ {left right : Bool} {taken : List α},
    Matches isWord pattern left taken right → ∀ edge, firstEdge isWord taken edge = true
  last : ∀ {left right : Bool} {taken : List α},
    Matches isWord pattern left taken right → ∀ edge, lastEdge isWord edge taken = true

/-- After the substitution of whole words none of them is found: what is next to a
replaced word is no word character. -/
theorem not_found_sub_whole {text : List α} (takes : pattern.Takes)
    (opened : ¬ allowed opening) (closed : ¬ allowed closing) (stays : pattern.Over allowed)
    (foreign : Foreign isWord word pattern) (whole : Whole isWord pattern) :
    ¬ Found isWord pattern (sub isWord pattern (opening :: (word ++ [closing])) text) := by
  intro found
  rcases part_of_found takes opened closed stays takes foreign found with
    ⟨leftOut, rightOut, earlier, taken, later, matched, _, absent, leftKept, rightKept⟩
  apply absent
  rcases leftKept with sameLeft | ⟨hitLeft, hit, replaced⟩
  · rcases rightKept with sameRight | ⟨hit, rest, replaced⟩
    · exact sameLeft ▸ sameRight ▸ matched
    · have noWord := whole.left replaced
      rw [whole.last matched] at noWord
      cases noWord
  · have noWord := whole.right replaced
    rw [firstEdge_append, whole.first matched] at noWord
    cases noWord

end Bracketed

/-! ## Lines -/

section Lines

variable {pattern : Pattern α} {allowed : α → Prop} {separator : α}

/-- A separator that no match contains keeps matches on one side of it. -/
theorem found_separated (stays : pattern.Over allowed) (takes : pattern.Takes)
    (apart : ¬ allowed separator) (noWord : isWord separator = false) {first rest : List α} :
    Found isWord pattern (first ++ separator :: rest) ↔
      Found isWord pattern first ∨ Found isWord pattern rest := by
  constructor
  · intro found
    rcases found with ⟨before, taken, after, split, matched⟩
    have outside : separator ∉ taken := fun member => apart (matched.stays stays _ member)
    rcases append_split split with ⟨inner, rfl, isRest⟩ | ⟨inner, _, rfl, same⟩
    · cases inner with
      | nil =>
          cases taken with
          | nil => exact absurd rfl (matched.ne_nil takes)
          | cons char taken =>
              rcases List.cons.inj isRest with ⟨rfl, _⟩
              exact absurd List.mem_cons_self outside
      | cons char inner =>
          rcases List.cons.inj isRest with ⟨rfl, later⟩
          rw [lastEdge_append, lastEdge, noWord] at matched
          exact .inr ⟨inner, taken, after, later, matched⟩
    · rcases append_split same with ⟨more, rfl, rfl⟩ | ⟨more, starts, rfl, isRest⟩
      · rw [firstEdge_append, firstEdge, noWord] at matched
        exact .inl ⟨before, taken, more, rfl, matched⟩
      · cases more with
        | nil => exact absurd rfl starts
        | cons char more =>
            rcases List.cons.inj isRest with ⟨rfl, _⟩
            exact absurd (List.mem_append_right _ List.mem_cons_self) outside
  · intro either
    rcases either with ⟨before, taken, after, rfl, matched⟩ | ⟨before, taken, after, rfl, matched⟩
    · apply Exists.intro before
      refine ⟨taken, after ++ separator :: rest, by simp only [List.append_assoc], ?_⟩
      rw [firstEdge_append, firstEdge, noWord]
      exact matched
    · apply Exists.intro (first ++ separator :: before)
      refine ⟨taken, after, by simp only [List.append_assoc, List.cons_append], ?_⟩
      rw [lastEdge_append, lastEdge, noWord]
      exact matched

theorem found_intercalate (stays : pattern.Over allowed) (takes : pattern.Takes)
    (apart : ¬ allowed separator) (noWord : isWord separator = false) :
    ∀ (lines : List (List α)), Found isWord pattern ([separator].intercalate lines) ↔
      ∃ line ∈ lines, Found isWord pattern line
  | [] => by
      constructor
      · intro found
        rcases found with ⟨before, taken, after, split, matched⟩
        have empty := (List.append_eq_nil_iff.mp (List.append_eq_nil_iff.mp split.symm).2).1
        exact absurd empty (matched.ne_nil takes)
      · intro someLine
        rcases someLine with ⟨_, member, _⟩
        cases member
  | [line] => by simp [List.intercalate]
  | line :: next :: rest => by
      have joined : [separator].intercalate (line :: next :: rest) =
          line ++ separator :: [separator].intercalate (next :: rest) := by
        simp [List.intercalate]
      rw [joined, found_separated stays takes apart noWord,
        found_intercalate stays takes apart noWord (next :: rest)]
      simp only [List.mem_cons, exists_eq_or_imp]

end Lines

end Words

end Patterns
