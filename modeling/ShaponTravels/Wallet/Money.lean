import Mathlib.Tactic.Common
import ShaponTravels.Errors

/-!
# Money — currencies and minor units

`wallet/money.rs` and the error constructors of `wallet/mod.rs`.
-/

namespace ShaponTravels.Wallet

def invalid (code : String) : ApiError := ⟨.unprocessableEntity, code⟩
def conflict (code : String) : ApiError := ⟨.conflict, code⟩
def forbidden : ApiError := ⟨.forbidden, "WALLET_FORBIDDEN"⟩
def missing : ApiError := ⟨.notFound, "WALLET_NOT_CONFIGURED"⟩

/-- The codes `db_error` passes on when a database function raises them. -/
def raisedCodes : List String :=
  ["IDEMPOTENCY_KEY_REUSED", "WALLET_FROZEN", "INSUFFICIENT_FUNDS", "WALLET_RESERVATION_MISMATCH",
    "REFUND_EXCEEDS_CAPTURE", "INVALID_WALLET_POSTING", "DEPOSIT_PAYMENT_ALREADY_CREDITED",
    "INVALID_DEPOSIT_REVERSAL", "DEPOSIT_REVERSAL_EXCEEDS_CREDIT"]

def dbError : DbError → ApiError
  | .unique name =>
    if startsWith name "wallet_setting_" then conflict "DUPLICATE_WALLET_SETTING"
    else .ofDb (.unique name)
  | .raised message =>
    if message ∈ raisedCodes then conflict message else .ofDb (.raised message)
  | .outOfRange => invalid "INVALID_WALLET_AMOUNT"
  | e => .ofDb e

/-! ## Currencies -/

/-- The currencies an account may have. -/
inductive Currency where
  | bdt
  | usd
  deriving DecidableEq, Repr

namespace Currency

def text : Currency → String
  | .bdt => "BDT"
  | .usd => "USD"

def ofText? : String → Option Currency
  | "BDT" => some .bdt
  | "USD" => some .usd
  | _ => none

@[simp] theorem ofText?_text (c : Currency) : ofText? c.text = some c := by
  cases c <;> rfl

theorem ofText?_eq_some {s : String} {c : Currency} : ofText? s = some c ↔ s = c.text := by
  constructor
  · intro h
    unfold ofText? at h
    split at h
    · cases h; rfl
    · cases h; rfl
    · cases h
  · rintro rfl
    exact ofText?_text c

end Currency

/-- `money::currency`. -/
def currency (value : String) : Except ApiError Currency :=
  match Currency.ofText? value with
  | some c => .ok c
  | none => .error (invalid "UNSUPPORTED_WALLET_CURRENCY")

@[simp] theorem currency_eq_ok {value : String} {c : Currency} :
    currency value = .ok c ↔ value = c.text := by
  rw [← Currency.ofText?_eq_some]
  unfold currency
  split
  · rename_i h; simp [h]
  · rename_i h; simp [h]

/-! ## Minor units -/

/-- `str::parse::<i64>` of a text of ASCII digits. -/
def parseDigits (s : List Char) : Option Int :=
  i64? (s.foldl (fun n c => n * 10 + (c.toNat - '0'.toNat : Nat)) (0 : Int))

/-- `major_to_minor`: decimal major units to integer minor units. -/
def majorToMinor (value : String) : Except ApiError Int :=
  let invalidAmount := Except.error (invalid "INVALID_WALLET_AMOUNT")
  match value.toList.splitOn '.' with
  | [] => invalidAmount
  | whole :: rest =>
    if whole = [] ∨ ¬ whole.all isAsciiDigit ∨ 2 ≤ rest.length then invalidAmount
    else
      let tail? : Option Int :=
        match rest with
        | [] => some 0
        | f :: _ =>
          if (f.length = 1 ∨ f.length = 2) ∧ f.all isAsciiDigit then
            (parseDigits f).map (· * if f.length = 1 then 10 else 1)
          else none
      match tail? with
      | none => invalidAmount
      | some tail =>
        match ((parseDigits whole).bind fun n => i64? (n * 100)).bind fun n => i64? (n + tail) with
        | some minor => .ok minor
        | none => invalidAmount

example : majorToMinor "49746.00" = .ok 4974600 ∧ majorToMinor "1.1" = .ok 110 ∧
    majorToMinor "90071992547409.91" = .ok 9007199254740991 ∧
    majorToMinor "92233720368547758.08" = .error (invalid "INVALID_WALLET_AMOUNT") ∧
    majorToMinor "1." = .error (invalid "INVALID_WALLET_AMOUNT") := by decide

end ShaponTravels.Wallet
