import CloudDrive.Database

/-! # Users and their quota

`get_by_email` and `QuotaService` of `app/users`. -/

namespace CloudDrive

open Outcome Relational

variable [Platform]

namespace UserService

def getByEmail (db : Database) (email : String) : Except ServiceError User :=
  orRaise (db.users.rows.find? fun user => decide (user.email = email))
    (.notFound "User not found")

end UserService

namespace QuotaService

def assertHasSpace (db : Database) (userId : Uuid) (bytesNeeded : Nat) :
    Except ServiceError Unit := do
  let user ← orRaise (db.users.find? userId) (.notFound "User not found")
  let available := user.quotaBytes - user.usedBytes
  require (¬ available < bytesNeeded) (.quotaExceeded
    s!"Insufficient storage space: need {bytesNeeded}, available {available}")

omit [Platform] in
theorem key_rewritten (userId : Uuid) (rewrite : Nat → Nat) (user : User) :
    Keyed.key (if user.id = userId then
      { user with usedBytes := rewrite user.usedBytes } else user) = Keyed.key user := by
  by_cases same : user.id = userId <;> simp [same]

/-- `UPDATE users SET used_bytes = ... WHERE id = user_id`. -/
def changeUsedBytes (userId : Uuid) (rewrite : Nat → Nat) (sys : System) : System :=
  let users := sys.db.users.map
    (fun user => if user.id = userId then
      { user with usedBytes := rewrite user.usedBytes } else user)
    (key_rewritten userId rewrite)
  { sys with db := { sys.db with users := users } }

def addUsedBytes (userId : Uuid) (delta : Nat) (sys : System) : System :=
  changeUsedBytes userId (· + delta) sys

/-- `greatest(0, used_bytes - delta)`. -/
def subtractUsedBytes (userId : Uuid) (delta : Nat) (sys : System) : System :=
  changeUsedBytes userId (· - delta) sys

end QuotaService

end CloudDrive
