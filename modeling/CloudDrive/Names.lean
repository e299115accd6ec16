import Mathlib
import CloudDrive.Database

/-! # File names

The name checks of `drive/service.py` and `upload/service.py`, and the numbering
that resolves a conflict with a sibling. -/

namespace CloudDrive

open Outcome

/-- The characters `str.strip` removes. -/
def isSpace (char : Char) : Bool :=
  let code := char.toNat
  (9 ≤ code && code ≤ 13) || (28 ≤ code && code ≤ 32) || code == 0x85 ||
    code == 0xa0 || code == 0x1680 || (0x2000 ≤ code && code ≤ 0x200a) ||
    code == 0x2028 || code == 0x2029 || code == 0x202f || code == 0x205f ||
    code == 0x3000

def strip (text : String) : String :=
  String.ofList
    ((text.toList.dropWhile isSpace).reverse.dropWhile isSpace).reverse

/-- `/`, `\` and NUL. -/
def isInvalidNameChar (char : Char) : Bool :=
  char == '/' || char == '\\' || char == Char.ofNat 0

/-- The shape shared by `_validate_name` and `_safe_filename`: they differ in
the texts of their errors only. -/
def checkName (emptyMessage tooLongMessage invalidMessage name : String) :
    Except ServiceError String := do
  let name := strip name
  require (name ≠ "") (.invalidOperation emptyMessage)
  require (name.length ≤ 512) (.invalidOperation tooLongMessage)
  require (name.toList.any isInvalidNameChar = false) (.invalidOperation invalidMessage)
  pure name

def validateName (name : String) : Except ServiceError String :=
  checkName "Name cannot be empty" "Name too long (max 512)"
    "Name contains invalid characters (/ \\ \\0)" name

def safeFilename (name : String) : Except ServiceError String :=
  checkName "Filename cannot be empty" "Filename too long (max 512 chars)"
    "Filename contains invalid characters" name

/-- What both checks accept. -/
structure Accepted (name : String) : Prop where
  notEmpty : name ≠ ""
  short : name.length ≤ 512
  noSeparator : ∀ char ∈ name.toList, isInvalidNameChar char = false

theorem Accepted.noSlash {name : String} (accepted : Accepted name) : '/' ∉ name.toList := by
  intro member
  have valid := accepted.noSeparator '/' member
  cases valid

theorem checkName_ok {emptyMessage tooLongMessage invalidMessage given name : String}
    (accepted : checkName emptyMessage tooLongMessage invalidMessage given = .ok name) :
    name = strip given ∧ Accepted name := by
  simp only [checkName, bind_eq_ok, require_eq_ok, pure_eq_ok] at accepted
  rcases accepted with ⟨_, notEmpty, _, short, _, valid, rfl⟩
  exact ⟨rfl, notEmpty, short, by simpa using valid⟩

/-- `(stem, ext)` around the last dot; a dot in front only is no extension. -/
def splitName (name : String) : String × String :=
  let chars := name.toList
  let after := (chars.reverse.takeWhile (· ≠ '.')).reverse
  let index := chars.length - after.length - 1
  if chars.contains '.' ∧ 0 < index then
    (String.ofList (chars.take index), String.ofList (chars.drop index))
  else
    (name, "")

/-- `ext.lstrip(".") if ext else None`. -/
def extensionOf (ext : String) : Option String :=
  if ext = "" then none else some (String.ofList (ext.toList.dropWhile (· = '.')))

example : splitName "report.tar.gz" = ("report.tar", ".gz") := by decide
example : splitName ".profile" = (".profile", "") := by decide

private theorem splitName_append (name : String) :
    (splitName name).1 ++ (splitName name).2 = name := by
  simp only [splitName]
  split
  · rw [← String.toList_inj]
    simp
  · simp

/-- `f"{stem} ({counter}){ext}"`. -/
def numberedName (stem : String) (counter : Nat) (ext : String) : String :=
  stem ++ " (" ++ toString counter ++ ")" ++ ext

theorem numberedName_toList (stem : String) (counter : Nat) (ext : String) :
    (numberedName stem counter ext).toList =
      stem.toList ++ (' ' :: '(' :: (toString counter).toList ++ [')']) ++ ext.toList := by
  simp [numberedName, String.toList_append]

theorem notMem_counter {char : Char} (noDigit : char.isDigit = false)
    (noBracket : char ∉ [' ', '(', ')']) (counter : Nat) :
    char ∉ ' ' :: '(' :: (toString counter).toList ++ [')'] := by
  have digits : char ∉ Nat.toDigits 10 counter := by
    intro member
    rw [Nat.isDigit_of_mem_toDigits (by decide) (by decide) member] at noDigit
    cases noDigit
  simp only [List.mem_cons, List.not_mem_nil, or_false, not_or] at noBracket
  simp [digits, noBracket]

theorem numberedName_inj {stem ext : String} {first second : Nat}
    (same : numberedName stem first ext = numberedName stem second ext) :
    first = second := by
  simp only [numberedName, String.append_assoc, String.append_right_inj] at same
  have digits : toString first = toString second := by
    have cancelled := congrArg String.toList same
    simp only [String.toList_append, ← List.append_assoc, List.append_cancel_right_eq]
      at cancelled
    exact String.toList_inj.mp cancelled
  exact Nat.repr_injective digits

theorem numberedName_longer (stem ext : String) (counter : Nat) :
    numberedName stem counter ext ≠ stem ++ ext := by
  intro equal
  have lengths := congrArg String.length equal
  have bracket : ")".length = 1 := rfl
  simp only [numberedName, String.length_append, bracket] at lengths
  omega

variable [Platform]

/-- The rows `name_exists_in_parent` selects. -/
def sameName (items : ItemTable) (name : String) (parentId : Option Uuid)
    (ownerId : Uuid) (excludeId : Option Uuid) : List DriveItem :=
  items.rows.filter fun row =>
    decide (row.ownerId = ownerId ∧ row.isDeleted = false ∧ row.name = name ∧
      row.parentId = parentId ∧ excludeId ≠ some row.id)

/-- `scalar_one_or_none` raises when the query returns several rows. -/
def nameExistsInParent (items : ItemTable) (name : String) (parentId : Option Uuid)
    (ownerId : Uuid) (excludeId : Option Uuid) : Except ServiceError Bool :=
  match sameName items name parentId ownerId excludeId with
  | [] => .ok false
  | [_] => .ok true
  | _ :: _ :: _ => .error .multipleResultsFound

/-- `while await name_exists_in_parent(name): name = ...; counter += 1`. -/
def numberName (items : ItemTable) (parentId : Option Uuid) (ownerId : Uuid)
    (stem ext : String) : Nat → Nat → String → Except ServiceError String
  | 0, _, _ => .error .diverged
  | fuel + 1, counter, name => do
      let taken ← nameExistsInParent items name parentId ownerId none
      if taken then
        numberName items parentId ownerId stem ext fuel (counter + 1)
          (numberedName stem counter ext)
      else
        pure name

/-- The numbering loop on `filename`. Every round that goes on has met another
sibling, so one round more than there are items is enough. -/
def resolveName (items : ItemTable) (parentId : Option Uuid) (ownerId : Uuid)
    (filename : String) : Except ServiceError String :=
  let parts := splitName filename
  numberName items parentId ownerId parts.1 parts.2 (items.rows.length + 1) 1 filename

theorem nameExists_taken {items : ItemTable} {name : String}
    {parentId : Option Uuid} {ownerId : Uuid} {excludeId : Option Uuid}
    (taken : nameExistsInParent items name parentId ownerId excludeId = .ok true) :
    name ∈ items.rows.map DriveItem.name := by
  cases found : sameName items name parentId ownerId excludeId with
  | nil => simp [nameExistsInParent, found] at taken
  | cons row rest =>
      have member : row ∈ sameName items name parentId ownerId excludeId := by
        simp [found]
      rcases List.mem_filter.mp member with ⟨rowMem, same⟩
      simp only [decide_eq_true_eq] at same
      exact List.mem_map.mpr ⟨row, rowMem, same.2.2.1⟩

/-- No other live item of the owner has the name there. -/
theorem nameExists_free {items : ItemTable} {name : String}
    {parentId : Option Uuid} {ownerId : Uuid} {excludeId : Option Uuid}
    (free : nameExistsInParent items name parentId ownerId excludeId = .ok false)
    {row : DriveItem} (member : row ∈ items) (owned : row.ownerId = ownerId)
    (live : row.isDeleted = false) (named : row.name = name)
    (there : row.parentId = parentId) : excludeId = some row.id := by
  rcases found : sameName items name parentId ownerId excludeId with
    _ | ⟨first, _ | ⟨second, rest⟩⟩
  · by_contra other
    have selected : row ∈ sameName items name parentId ownerId excludeId :=
      List.mem_filter.mpr ⟨member, decide_eq_true ⟨owned, live, named, there, other⟩⟩
    rw [found] at selected
    cases selected
  · rw [nameExistsInParent, found] at free
    cases free
  · rw [nameExistsInParent, found] at free
    cases free

theorem numberName_free {items : ItemTable} {parentId : Option Uuid} {ownerId : Uuid}
    {stem ext : String} : ∀ {fuel counter : Nat} {name given : String},
      numberName items parentId ownerId stem ext fuel counter name = .ok given →
      nameExistsInParent items given parentId ownerId none = .ok false
  | 0, _, _, _, resolved => by cases resolved
  | fuel + 1, counter, name, given, resolved => by
      simp only [numberName, bind_eq_ok] at resolved
      rcases resolved with ⟨taken, exist, resolved⟩
      cases taken with
      | true => exact numberName_free resolved
      | false =>
          cases pure_eq_ok.mp resolved
          exact exist

theorem resolveName_free {items : ItemTable} {parentId : Option Uuid} {ownerId : Uuid}
    {filename given : String}
    (resolved : resolveName items parentId ownerId filename = .ok given) :
    nameExistsInParent items given parentId ownerId none = .ok false :=
  numberName_free resolved

theorem nameExists_ne_diverged {items : ItemTable} {name : String}
    {parentId : Option Uuid} {ownerId : Uuid} {excludeId : Option Uuid} :
    nameExistsInParent items name parentId ownerId excludeId ≠ .error .diverged := by
  rcases found : sameName items name parentId ownerId excludeId with
    _ | ⟨first, _ | ⟨second, rest⟩⟩ <;> simp [nameExistsInParent, found]

/-- The `round`-th name the loop tries, counting from zero. -/
def triedName (stem ext : String) (counter : Nat) (name : String) : Nat → String
  | 0 => name
  | round + 1 => numberedName stem (counter + round) ext

private theorem tried_taken {items : ItemTable} {parentId : Option Uuid}
    {ownerId : Uuid} {stem ext : String} :
    ∀ {fuel counter : Nat} {name : String},
      numberName items parentId ownerId stem ext fuel counter name = .error .diverged →
      ∀ round < fuel, triedName stem ext counter name round ∈
        items.rows.map DriveItem.name
  | 0, _, _, _, round, short => by omega
  | fuel + 1, counter, name, diverged, round, short => by
      rw [numberName] at diverged
      cases exist : nameExistsInParent items name parentId ownerId none with
      | error error =>
          rw [exist] at diverged
          cases diverged
          exact absurd exist nameExists_ne_diverged
      | ok taken =>
          cases taken with
          | false => simp [exist, bind, Except.bind, pure, Except.pure] at diverged
          | true =>
              cases round with
              | zero => exact nameExists_taken exist
              | succ round =>
                  have later : numberName items parentId ownerId stem ext fuel
                      (counter + 1) (numberedName stem counter ext) = .error .diverged := by
                    simpa [exist, bind, Except.bind] using diverged
                  have taken := tried_taken later round (by omega)
                  cases round with
                  | zero => exact taken
                  | succ round =>
                      simpa [triedName, Nat.add_assoc, Nat.add_comm 1] using taken

/-- The numbering always finds a free name. -/
theorem resolveName_ne_diverged (items : ItemTable) (parentId : Option Uuid)
    (ownerId : Uuid) (filename : String) :
    resolveName items parentId ownerId filename ≠ .error .diverged := by
  intro diverged
  have taken := tried_taken diverged
  have split := splitName_append filename
  generalize (splitName filename).1 = stem at taken split
  generalize (splitName filename).2 = ext at taken split
  have distinct : ((List.range (items.rows.length + 1)).map
      (triedName stem ext 1 filename)).Nodup := by
    refine List.Nodup.map_on ?_ List.nodup_range
    intro first _ second _ same
    have longer : ∀ counter, numberedName stem counter ext ≠ filename :=
      fun counter => split ▸ numberedName_longer stem ext counter
    rcases first with _ | first <;> rcases second with _ | second
    · rfl
    · exact absurd same.symm (longer _)
    · exact absurd same (longer _)
    · have equal := numberedName_inj same
      omega
  have inside : (List.range (items.rows.length + 1)).map
      (triedName stem ext 1 filename) ⊆ items.rows.map DriveItem.name := by
    intro name member
    rcases List.mem_map.mp member with ⟨round, roundMem, rfl⟩
    exact taken round (List.mem_range.mp roundMem)
  have tooMany := (List.subperm_of_subset distinct inside).length_le
  simp only [List.length_map, List.length_range] at tooMany
  omega

end CloudDrive
