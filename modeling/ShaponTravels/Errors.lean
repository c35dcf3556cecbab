import Mathlib.Tactic.Common
import ShaponTravels.Text

/-!
# Errors — what a request and a database statement can fail with
-/

namespace ShaponTravels

/-- A SHA-256 digest. -/
abbrev Digest := BitVec 256

/-- What the code takes from its platform: the hash of a text, the Unicode case mappings and `lower`
of the database. -/
structure Platform where
  digest : String → Digest
  toLowercase : String → String
  toUppercase : String → String
  sqlLower : String → String

/-- The status codes the code answers with. -/
inductive StatusCode where
  | badRequest
  | unauthorized
  | forbidden
  | notFound
  | conflict
  | gone
  | unprocessableEntity
  | tooManyRequests
  | internalServerError
  | badGateway
  | serviceUnavailable
  deriving DecidableEq, Repr

/-- `auth::ApiError`: the status and the code in the body. -/
structure ApiError where
  status : StatusCode
  code : String
  deriving DecidableEq, Repr

/-- How a statement fails: an exception raised by a function, a number out of the range of its
type, a duplicate key, another violated constraint, a missing row. -/
inductive DbError where
  | raised (message : String)
  | outOfRange
  | unique (constraintName : String)
  | violated (constraintName : String)
  | noRow
  deriving DecidableEq, Repr

/-- `From<sqlx::Error> for ApiError`. -/
def ApiError.ofDb (_ : DbError) : ApiError := ⟨.serviceUnavailable, "DATABASE_UNAVAILABLE"⟩

/-! ## Integers of the database -/

def bigintMax : Int := 9223372036854775807

/-- The value of a BIGINT expression, when it is in range. -/
def bigint (n : Int) : Except DbError Int :=
  if -bigintMax - 1 ≤ n ∧ n ≤ bigintMax then .ok n else .error .outOfRange

/-- An `i64` result, when it is in range (`checked_add` and its kin). -/
def i64? (n : Int) : Option Int :=
  if -bigintMax - 1 ≤ n ∧ n ≤ bigintMax then some n else none

@[simp] theorem bigint_eq_ok {n m : Int} :
    bigint n = .ok m ↔ (-bigintMax - 1 ≤ n ∧ n ≤ bigintMax) ∧ n = m := by
  unfold bigint
  split
  · rename_i h
    rw [Except.ok.injEq]
    exact ⟨fun he => ⟨h, he⟩, fun he => he.2⟩
  · rename_i h
    exact iff_of_false (by simp) (fun he => h he.1)

@[simp] theorem i64?_eq_some {n m : Int} :
    i64? n = some m ↔ (-bigintMax - 1 ≤ n ∧ n ≤ bigintMax) ∧ n = m := by
  unfold i64?
  split
  · rename_i h
    rw [Option.some.injEq]
    exact ⟨fun he => ⟨h, he⟩, fun he => he.2⟩
  · rename_i h
    exact iff_of_false (by simp) (fun he => h he.1)

end ShaponTravels
