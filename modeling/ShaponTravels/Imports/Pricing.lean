import ShaponTravels.Edits
import ShaponTravels.Imports.Portal
import ShaponTravels.Imports.Receipts
import ShaponTravels.Markup.Quotes

/-!
# Pricing — the price of an import from its supplier's fares

`portal_imports/pricing.rs`.  The rows of a supplier's fare are about all passengers of a type; they are
priced as the native quotes are, one passenger at a time.
-/

namespace ShaponTravels.Imports

open Library Pricing BigDecimal
open Booking (Casing)
open Wallet (conflict)
open Markup (StoredRule)

/-! ## Counting -/

/-- Counts added up by key, as a map of them is filled. -/
def tally (counts : List (String × Nat)) : Value :=
  counts.foldl (fun v c => v.setField c.1 (.ofInt (((v.field c.1).asU64?.getD 0 + c.2 : Nat)))) (.object [])

/-! ## The price -/

/-- The machine client of an agency, and the share of its tier. -/
structure TierClient where
  agent : Uuid
  tier : String
  share : Int

/-- What `price` reads of the database. -/
structure Tariff where
  ownerSubject : String → Except ApiError String
  client : String → Option TierClient
  rules : Uuid → String → List StoredRule

/-- `decimal` of `pricing.rs`: the text of the value is a number, and not below zero. -/
def supplierAmount (v : Value) : Except ApiError BigDecimal := do
  let n ← fetch (BigDecimal.parse v.text) invalid
  ensure (¬ n.isNegative) invalid
  return n

/-- What one passenger of a row pays. -/
structure PerPassenger where
  base : BigDecimal
  taxes : BigDecimal
  ait : BigDecimal
  supplier : BigDecimal

def PerPassenger.face (p : PerPassenger) : BigDecimal := (p.base.add p.taxes).add p.ait

def perPassenger (d : Decimals) (f : Value) (count : Nat) : Except ApiError PerPassenger := do
  let n := ofInt count
  let base ← supplierAmount (f.field "basePrice")
  let taxes ← supplierAmount (f.field "taxes")
  let serviceCharge ← supplierAmount (f.field "serviceCharge")
  let ait ← supplierAmount (f.field "ait")
  let supplier ← supplierAmount (f.field "supplierTotalPrice")
  let p : PerPassenger := ⟨d.quotient base n, d.quotient (taxes.add serviceCharge) n, d.quotient ait n,
    d.quotient supplier n⟩
  ensure ([p.base, p.taxes, p.ait, p.supplier, p.face].all isRound)
    (conflict "SUPPLIER_PRICING_COVERAGE_UNSUPPORTED")
  return p

/-- The variables of the loop over the supplier's fares. -/
structure Supplied where
  counts : Value
  fares : Value
  gross : Value
  grossTotal : BigDecimal
  supplierTotal : BigDecimal

/-- The body of the loop. -/
def supplierRow (d : Decimals) (cs : Casing) (s : Supplied) (f : Value) : Except ApiError Supplied := do
  let type ← strField f "passengerType" 3
  let kind := cs.lower type
  let count ← fetch ((f.field "count").asU64?.filter fun c => 0 < c ∧ c ≤ 20) invalid
  ensure ((s.fares.get? kind).isNone) invalid
  let p ← perPassenger d f count
  return {
    counts := s.counts.setField kind (.ofInt count)
    fares := s.fares.setField kind (.object [("basePrice", numeric d p.base), ("taxes", numeric d p.taxes),
      ("ait", numeric d p.ait), ("totalPrice", numeric d p.supplier)])
    gross := s.gross.setField kind (.object [("totalPrice", numeric d p.face)])
    grossTotal := s.grossTotal.addAssign (p.face.mulRef (ofInt count))
    supplierTotal := s.supplierTotal.addAssign (p.supplier.mulRef (ofInt count)) }

/-- The travellers are as many of each type as are priced. -/
def checkTravellers (cs : Casing) (data counts : Value) : Except ApiError Unit :=
  match ((data.field "passengers").field "travellers").asArray? with
  | none => .ok ()
  | some travellers => do
    let types ← travellers.mapM fun t => strField t "passengerType" 3
    ensure (tally (types.map fun type => (cs.lower type, 1)) = counts)
      (conflict "IMPORT_PASSENGER_FARE_MISMATCH")

/-- Whether the legs are more than a way and its way back. -/
def isComplex (legs : List Value) (origin destination : String) : Bool :=
  match legs with
  | [] | [_] => false
  | [_, back] => back.field "from" ≠ .str destination || back.field "to" ≠ .str origin
  | _ => true

/-- `Tier::parse`. -/
def parseTier : String → Except ApiError Tier
  | "basic" => .ok .basic
  | "professional" => .ok .professional
  | "enterprise" => .ok .enterprise
  | _ => .error ⟨.unprocessableEntity, "INVALID_TIER"⟩

/-- The rule that applies to the legs, and its version. -/
def importRule (t : Tariff) (agent : Uuid) (currency : String) (data : Value) :
    Except ApiError (Rule × Value) := do
  let stored := t.rules agent currency
  let rules ← stored.mapM StoredRule.rule
  let legs ← fetch (((data.field "itinerary").field "legs").asArray?.filter fun a => a ≠ []) invalid
  let carrier ← strField (data.field "itinerary") "carrierCode" 3
  let origin ← strField (legs.headD .null) "from" 3
  let destination ← strField (legs.headD .null) "to" 3
  ensure (¬ (isComplex legs origin destination ∧ ∃ r ∈ rules, r.route.isSome ∨ r.airline.isSome))
    (conflict "COMPLEX_SCOPE_MATCHING_UNRESOLVED")
  let rule ← (resolve rules (.agent agent.text) carrier (origin, destination)).mapError fun _ =>
    conflict "PRICING_CONFIGURATION_ERROR"
  let version := (stored.find? fun s => s.id.text = rule.id).map fun s => s.version
  return (rule, version.elim .null fun n => .ofInt n)

/-- The offer the fares are quoted for, and its published gross. -/
def Supplied.original (s : Supplied) : Value :=
  .object [("passengerCounts", s.counts), ("passengerFares", s.fares)]

def Supplied.published (d : Decimals) (s : Supplied) : Value :=
  .object [("passengerCounts", .object []), ("passengerFares", s.gross), ("totalPrice", numeric d s.grossTotal)]

/-- `pricing::price`. -/
def price (d : Decimals) (cs : Casing) (t : Tariff) (assigned : String) (data : Value) :
    Except ApiError Value := do
  let owner ← t.ownerSubject assigned
  let client ← fetch (t.client owner) (conflict "PORTAL_CLIENT_UNAVAILABLE")
  let currency ← strField data "currency" 3
  let (rule, version) ← importRule t client.agent currency data
  let fares ← boundedArray (data.field "supplierFares") 5
  let s ← fares.foldlM (supplierRow d cs) ⟨.object [], .object [], .object [], ofInt 0, ofInt 0⟩
  let supplierGross ← supplierAmount (data.field "supplierGross")
  let supplierPayable ← supplierAmount (data.field "supplierPayable")
  ensure (s.grossTotal.cmp supplierGross = .eq ∧ s.supplierTotal.cmp supplierPayable = .eq) invalid
  checkTravellers cs data s.counts
  let tier ← parseTier client.tier
  let pricing ← snapshot d s.original (s.published d) (some tier) client.share currency rule.markup
  return (pricing.setField "ruleId" (.str rule.id)).setField "ruleVersion" version

/-! ## Exact shares -/

/-- What the crate writes of cents is read back, plain and with the format `.2`; a count of at most twenty
divides cents exactly when they can be shared, and to more places than two when they cannot. -/
structure Cents (d : Decimals) : Prop where
  reads : ∀ (a : BigDecimal) (n : Int), a.toRat = n / 100 →
    ∃ x, BigDecimal.parse (d.display a) = some x ∧ x.toRat = a.toRat
  rounds : ∀ (a : BigDecimal) (n : Int), a.toRat = n / 100 →
    ∃ x, BigDecimal.parse (d.fixed a) = some x ∧ x.toRat = n / 100
  divides : ∀ (a : BigDecimal) (n m : Nat), 0 < n → n ≤ 20 → n * m < 2 ^ 64 → a.toRat = ((n * m : Nat) : ℚ) / 100 →
    (d.quotient a (ofInt n)).toRat = m / 100
  rest : ∀ (a : BigDecimal) (n m : Nat), 0 < n → n ≤ 20 → m < 2 ^ 64 → a.toRat = m / 100 → ¬ n ∣ m →
    isRound (d.quotient a (ofInt n)) = false

variable {d : Decimals} {cs : Casing} {v data pricing : Value} {a : BigDecimal}

/-- What is read of a number is read of it again; a text is none. -/
theorem decimal_of_supplierAmount (h : supplierAmount v = .ok a) : decimal v = some a := by
  simp only [supplierAmount, bind_eq_ok, fetch_eq_ok, ensure_eq_ok, pure_eq_ok, exists_const] at h
  obtain ⟨n, hn, -, rfl⟩ := h
  cases v with
  | str s =>
    exfalso
    have hquote : ∀ rest : List Char, BigDecimal.parseBigInt ('"' :: rest) = none := by
      intro rest
      show BigDecimal.parseBigInt.unsigned ('"' :: rest) = none
      simp [BigDecimal.parseBigInt.unsigned, isAsciiDigit]
    have htext : ∃ rest, (Value.str s).text.toList = '"' :: rest := ⟨_, String.toList_ofList⟩
    obtain ⟨rest, hrest⟩ := htext
    unfold BigDecimal.parse at hn
    simp [hrest, hquote] at hn
  | _ => exact hn

/-- Cents that are shared into two places are a multiple of their share. -/
theorem Cents.share (hd : Cents d) {n m : Nat} {units : Int} (hpos : 0 < n) (hle : n ≤ 20) (hm : m < 2 ^ 64)
    (ha : a.toRat = m / 100) (h : (d.quotient a (ofInt n)).toRat = units / 100) :
    ∃ k : Nat, units = k ∧ m = n * k := by
  have hdvd : n ∣ m := by
    by_contra hrest
    have hround : isRound (d.quotient a (ofInt n)) = true := isRound_iff.mpr ⟨units, h⟩
    rw [hd.rest a n m hpos hle hm ha hrest] at hround
    cases hround
  obtain ⟨k, rfl⟩ := hdvd
  have hk := hd.divides a n k hpos hle hm ha
  rw [h] at hk
  have hunits : (units : ℚ) = k := by linarith
  exact ⟨k, by exact_mod_cast hunits, rfl⟩

/-! ## What is quoted -/

/-- What one passenger of a line pays with the tax that is paid in advance. -/
def Line.face (l : Line) : Int := l.gross + l.ait

/-- What all passengers pay with it. -/
def faceTotal (lines : List Line) : Int := (lines.map fun l => (l.count : Int) * l.face).sum

/-- A supplier's row is quoted as the line. -/
structure Line.Quoted (d : Decimals) (cs : Casing) (row : Value) (l : Line) : Prop where
  kind : ∃ type, row.field "passengerType" = .str type ∧ l.kind = cs.lower type
  count : (row.field "count").asU64? = some l.count
  positive : 0 < l.count
  few : l.count ≤ 20
  base : ∃ a, supplierAmount (row.field "basePrice") = .ok a ∧
    (d.quotient a (ofInt l.count)).toRat = l.base / 100
  taxes : ∃ a b, supplierAmount (row.field "taxes") = .ok a ∧ supplierAmount (row.field "serviceCharge") = .ok b ∧
    (d.quotient (a.add b) (ofInt l.count)).toRat = l.taxes / 100
  ait : ∃ a, supplierAmount (row.field "ait") = .ok a ∧ (d.quotient a (ofInt l.count)).toRat = l.ait / 100

/-- What the loop has made of the rows it has read. -/
structure Supplied.Holds (d : Decimals) (s : Supplied) (lines : List Line) : Prop where
  nodup : (lines.map (·.kind)).Nodup
  counts : ∃ fields, s.counts = .obj fields ∧
    fields.Perm (lines.map fun l => (l.kind, Value.ofInt l.count))
  fares : Keyed s.fares lines
  object : s.gross.isObject
  gross : ∀ l ∈ lines, ∃ face : BigDecimal, (s.gross.field l.kind).field "totalPrice" = numeric d face ∧
    face.toRat = l.face / 100
  total : s.grossTotal.toRat = faceTotal lines / 100

theorem faceTotal_append (lines : List Line) (l : Line) :
    faceTotal (lines ++ [l]) = faceTotal lines + l.count * l.face := by
  simp [faceTotal]

/-- A key that is not there yet is one more field. -/
theorem perm_setField {counts x : Value} {fields more : List (String × Value)} {key : String}
    (hcounts : counts = .obj fields) (hperm : fields.Perm more) (hnew : key ∉ more.map Prod.fst) :
    ∃ fields', counts.setField key x = .obj fields' ∧ fields'.Perm (more ++ [(key, x)]) := by
  refine ⟨_, by rw [hcounts]; rfl, ?_⟩
  have hfields : ∀ f ∈ fields, f.1 ≠ key := by
    intro f hf heq
    exact hnew (heq ▸ List.mem_map_of_mem (hperm.mem_iff.mp hf))
  exact (Value.insertField_perm hfields).trans ((hperm.cons _).trans (List.perm_append_singleton _ _).symm)

/-- The step: a row is quoted as its line. -/
theorem supplierRow_holds {s s' : Supplied} {lines : List Line} {row : Value} (hs : s.Holds d lines)
    (h : supplierRow d cs s row = .ok s') :
    ∃ l : Line, l.Quoted d cs row ∧ s'.Holds d (lines ++ [l]) := by
  simp only [supplierRow, perPassenger, strField, bind_eq_ok, fetch_eq_ok, ensure_eq_ok, pure_eq_ok, exists_const,
    Option.filter_eq_some_iff, Value.asStr?_eq_some, Option.isNone_iff_eq_none, decide_eq_true_eq] at h
  obtain ⟨type, ⟨htype, -⟩, count, ⟨hcount, hpositive, hfew⟩, hnone, p,
    ⟨base, hbase, taxes, htaxes, service, hservice, ait, hait, supplier, -, hround, rfl⟩, rfl⟩ := h
  rw [List.all_eq_true] at hround
  obtain ⟨b, hb⟩ := isRound_iff.mp (hround _ List.mem_cons_self)
  obtain ⟨t, ht⟩ := isRound_iff.mp (hround _ (List.mem_cons_of_mem _ List.mem_cons_self))
  obtain ⟨w, hw⟩ := isRound_iff.mp
    (hround _ (List.mem_cons_of_mem _ (List.mem_cons_of_mem _ List.mem_cons_self)))
  let l : Line := ⟨cs.lower type, count, b, t, w⟩
  have hnew : l.kind ∉ lines.map (·.kind) := hs.fares.fresh hnone
  have hother : ∀ l' ∈ lines, l'.kind ≠ l.kind := by
    intro l' hl' heq
    exact hnew (heq ▸ List.mem_map_of_mem hl')
  have hface : (((d.quotient base (ofInt count)).add (d.quotient (taxes.add service) (ofInt count))).add
      (d.quotient ait (ofInt count))).toRat = l.face / 100 := by
    rw [toRat_add, toRat_add, hb, ht, hw]
    show _ = (((b + t) + w : Int) : ℚ) / 100
    push_cast
    ring
  refine ⟨l, ⟨⟨type, htype, rfl⟩, hcount, hpositive, hfew, ⟨base, hbase, hb⟩,
    ⟨taxes, service, htaxes, hservice, ht⟩, ⟨ait, hait, hw⟩⟩, ?_⟩
  constructor
  · rw [List.map_append]
    refine List.nodup_append.mpr ⟨hs.nodup, List.nodup_singleton _, ?_⟩
    intro kind hkind other hlast heq
    rw [heq, List.mem_singleton.mp hlast] at hkind
    exact hnew hkind
  · obtain ⟨fields, hfields, hperm⟩ := hs.counts
    have hkey : l.kind ∉ (lines.map fun l => (l.kind, Value.ofInt l.count)).map Prod.fst := by
      rw [List.map_map]
      exact hnew
    obtain ⟨fields', hset, hperm'⟩ := perm_setField (x := .ofInt count) hfields hperm hkey
    refine ⟨fields', hset, ?_⟩
    rw [List.map_append]
    exact hperm'
  · exact hs.fares.setField hnew
  · exact Value.isObject_setField hs.object
  · intro l' hl'
    rcases List.mem_append.mp hl' with hl' | hl'
    · rw [Value.field_setField_ne (hother l' hl')]
      exact hs.gross l' hl'
    · rw [List.mem_singleton.mp hl', Value.field_setField_self hs.object]
      refine ⟨_, ?_, hface⟩
      rw [Value.field, Value.get?_object]
      rfl
  · rw [toRat_addAssign, toRat_mulRef, toRat_ofInt, PerPassenger.face, hface, hs.total, faceTotal_append]
    push_cast
    ring

/-- The run: every row is quoted. -/
theorem supplierRows_hold {rows : List Value} {s s' : Supplied} {lines : List Line} (hs : s.Holds d lines)
    (h : rows.foldlM (supplierRow d cs) s = .ok s') :
    ∃ more, List.Forall₂ (Line.Quoted d cs) rows more ∧ s'.Holds d (lines ++ more) := by
  induction rows generalizing s lines with
  | nil =>
    cases h
    exact ⟨[], .nil, by rw [List.append_nil]; exact hs⟩
  | cons row rows ih =>
    rw [List.foldlM_cons, bind_eq_ok] at h
    obtain ⟨next, hnext, hrest⟩ := h
    obtain ⟨l, hl, hholds⟩ := supplierRow_holds hs hnext
    obtain ⟨more, hmore, hall⟩ := ih hholds hrest
    rw [List.append_assoc, List.singleton_append] at hall
    exact ⟨l :: more, .cons hl hmore, hall⟩

/-! ## The snapshot -/

variable {s : Supplied} {lines : List Line}

/-- The quote of a line. -/
structure Line.QuotedAs (l : Line) (q : KindQuote) : Prop where
  kind : q.kind = l.kind
  count : q.count = l.count
  gross : q.gross.toRat = l.face / 100

theorem weighted_toRat {α : Type} {amount : α → BigDecimal} {count : α → Nat} {units : α → Int} {rows : List α}
    (h : ∀ r ∈ rows, (amount r).toRat = units r / 100) :
    (weighted amount count rows).toRat = ((rows.map fun r => (count r : Int) * units r).sum : Int) / 100 := by
  rw [weighted, toRat_summed]
  induction rows with
  | nil => simp
  | cons r rows ih =>
    rw [List.map_cons, List.sum_cons, ih fun r hr => h r (List.mem_cons_of_mem _ hr), toRat_mul_ofInt,
      h r List.mem_cons_self, List.map_cons, List.sum_cons]
    push_cast
    ring

theorem published_gross {kind : String} :
    ((s.published d).field "passengerFares").field kind = s.gross.field kind := by
  have hfares : (s.published d).field "passengerFares" = s.gross := by
    rw [Supplied.published, Value.field, Value.get?_object]
    rfl
  rw [hfares]

/-- A line that is counted has its quote. -/
theorem quoteKind_line (hd : Cents d) (hs : s.Holds d lines) {tier : Option Tier} {share : Int} {markup : Markup}
    {l : Line} (hl : l ∈ lines) (hpositive : 0 < l.count) (hfew : l.count ≤ 20) {r : Option KindQuote}
    (h : quoteKind d s.original (s.published d) tier share markup (l.kind, .ofInt l.count) = .ok r) :
    ∃ q, r = some q ∧ l.QuotedAs q := by
  have hcount : (Value.ofInt l.count).asU64? = some l.count := Value.asU64?_ofInt (by omega)
  simp only [quoteKind, hcount, fetch_some, ok_bind, if_neg hpositive.ne', bind_eq_ok, ensure_eq_ok, pure_eq_ok,
    exists_const, published_gross] at h
  obtain ⟨-, -, gross, hgross, -, -, -, -, rfl⟩ := h
  obtain ⟨face, hface, hvalue⟩ := hs.gross l hl
  obtain ⟨x, hx, hread⟩ := hd.reads face l.face hvalue
  rw [hface] at hgross
  obtain ⟨lexeme, hlexeme, hparse⟩ := tierMoney_ok hgross
  obtain rfl : lexeme = d.display face := (Value.num.inj hlexeme).symm
  obtain rfl : x = gross := Option.some.inj (hx.symm.trans hparse)
  exact ⟨_, rfl, rfl, rfl, hread.trans hvalue⟩

/-- The quotes of lines, in the order of the lines. -/
theorem quotes_of_lines {f : String × Value → Except ApiError (Option KindQuote)}
    {fields : List (String × Value)} {found : List (Option KindQuote)} {sorted : List Line}
    (hquote : ∀ l ∈ sorted, ∀ r, f (l.kind, .ofInt l.count) = .ok r → ∃ q, r = some q ∧ l.QuotedAs q)
    (hfields : List.Forall₂ (fun e (l : Line) => e = (l.kind, Value.ofInt l.count)) fields sorted)
    (hfound : List.Forall₂ (fun e r => f e = .ok r) fields found) :
    List.Forall₂ Line.QuotedAs sorted found.reduceOption := by
  induction hfields generalizing found with
  | nil =>
    cases hfound
    exact .nil
  | cons hfield _ ih =>
    cases hfound with
    | cons hhead hrest =>
      subst hfield
      obtain ⟨q, rfl, hq⟩ := hquote _ List.mem_cons_self _ hhead
      rw [List.reduceOption_cons_of_some]
      exact .cons hq (ih (fun l hl => hquote l (List.mem_cons_of_mem _ hl)) hrest)

/-- A pricing shows what its lines cost. -/
structure Charges (pricing : Value) (lines : List Line) : Prop where
  gross : Reads (pricing.field "gross") (faceTotal lines / 100)
  passengers : Keyed (pricing.field "passengers") lines
  each : ∀ l ∈ lines, Reads (((pricing.field "passengers").field l.kind).field "gross") (l.face / 100)

theorem quoted_map {sorted : List Line} {quotes : List KindQuote} (h : List.Forall₂ Line.QuotedAs sorted quotes) :
    quotes.map (·.kind) = sorted.map (·.kind) := by
  induction h with
  | nil => rfl
  | cons hq _ ih => rw [List.map_cons, List.map_cons, hq.kind, ih]

/-- The gross of a quote in minor units is what its line costs. -/
theorem quoted_units {sorted : List Line} {quotes : List KindQuote} (h : List.Forall₂ Line.QuotedAs sorted quotes) :
    quotes.map (fun q => (q.count : Int) * (q.gross.withScaleRound 2).digits) =
      sorted.map fun l => (l.count : Int) * l.face := by
  induction h with
  | nil => rfl
  | cons hq _ ih => rw [List.map_cons, List.map_cons, hq.count, withScaleRound_of_toRat hq.gross, ih]

theorem snapshot_charges (hd : Cents d) (hs : s.Holds d lines) (hcounts : ∀ l ∈ lines, 0 < l.count ∧ l.count ≤ 20)
    {tier : Option Tier} {share : Int} {currency : String} {markup : Markup}
    (h : snapshot d s.original (s.published d) tier share currency markup = .ok pricing) :
    Charges pricing lines := by
  simp only [snapshot, bind_eq_ok, ensure_eq_ok, fetch_eq_ok, exists_const, pure_eq_ok,
    Value.asObject?_eq_some] at h
  obtain ⟨-, -, counts, hfield, found, hfound, claimed, -, -, rfl⟩ := h
  obtain ⟨fields, hfields, hperm⟩ := hs.counts
  have horiginal : s.original.field "passengerCounts" = s.counts := by
    rw [Supplied.original, Value.field, Value.get?_object]
    rfl
  obtain rfl : fields = counts := by
    rw [horiginal, hfields] at hfield
    exact Value.obj.inj hfield
  have hkinds : (fields.map Prod.fst).Perm (lines.map (·.kind)) := by
    have hmapped := hperm.map Prod.fst
    rwa [List.map_map] at hmapped
  rw [Value.entries_of_nodup (hkinds.nodup_iff.mpr hs.nodup), mapM_eq_ok] at hfound
  -- The quotes come in the order of the object, which is not the one of the rows.
  have hlines : List.Forall₂ (fun e (l : Line) => e = (l.kind, Value.ofInt l.count))
      (lines.map fun l => (l.kind, Value.ofInt l.count)) lines := by
    rw [List.forall₂_map_left_iff, List.forall₂_same]
    exact fun _ _ => rfl
  obtain ⟨sorted, hsorted, hsame⟩ := List.perm_comp_forall₂ hperm hlines
  have hquotes := quotes_of_lines (fun l hl r hr => quoteKind_line hd hs (hsame.mem_iff.mp hl)
    (hcounts l (hsame.mem_iff.mp hl)).1 (hcounts l (hsame.mem_iff.mp hl)).2 hr) hsorted hfound
  have hkindsOf := quoted_map hquotes
  have hnodup : (found.reduceOption.map (·.kind)).Nodup := by
    rw [hkindsOf]
    exact (hsame.map _).nodup_iff.mpr hs.nodup
  have hunits : ∀ q ∈ found.reduceOption, q.gross.toRat = (q.gross.withScaleRound 2).digits / 100 := by
    intro q hq
    obtain ⟨l, -, hl⟩ := exists_left hquotes hq
    rw [withScaleRound_of_toRat hl.gross, hl.gross]
  have htotal : (weighted KindQuote.gross KindQuote.count found.reduceOption).toRat =
      (faceTotal lines : Int) / 100 := by
    rw [weighted_toRat hunits, quoted_units hquotes, faceTotal, (hsame.map _).sum_eq]
  constructor
  · rw [field_enrich (by decide), Value.field, Value.get?_object]
    exact hd.rounds _ _ htotal
  · have hkeys : ((found.reduceOption.map (KindQuote.toField d)).map Prod.fst).Nodup := by
      rw [List.map_map]
      exact hnodup
    obtain ⟨shown, hshown, hshownPerm⟩ := Value.object_perm hkeys
    have hsortedKinds : ((found.reduceOption.map (KindQuote.toField d)).map Prod.fst) = sorted.map (·.kind) := by
      rw [List.map_map]
      exact hkindsOf
    refine ⟨shown, ?_, ?_⟩
    · rw [field_enrich (by decide), Value.field, Value.get?_object, ← hshown]
      rfl
    · have hmapped := hshownPerm.map Prod.fst
      rw [hsortedKinds] at hmapped
      exact hmapped.trans (hsame.map _)
  · intro l hl
    obtain ⟨q, hq, hquoted⟩ := exists_right hquotes (hsame.mem_iff.mpr hl)
    have hpassenger : (Value.object (found.reduceOption.map (KindQuote.toField d))).get? q.kind =
        some (q.toField d).2 := Value.get?_object_map hnodup (fun q => (q.toField d).2) hq
    have hpassengers : (Value.object (found.reduceOption.map (KindQuote.toField d))).field l.kind =
        (q.toField d).2 := by
      rw [← hquoted.kind]
      exact Value.field_of_get? hpassenger
    have hfield : ∀ p : Value, p = .object (found.reduceOption.map (KindQuote.toField d)) →
        Reads ((p.field l.kind).field "gross") (l.face / 100) := by
      rintro p rfl
      rw [hpassengers, KindQuote.toField, Value.field, Value.get?_object]
      exact hd.rounds _ _ hquoted.gross
    apply hfield
    rw [field_enrich (by decide), Value.field, Value.get?_object]
    rfl

/-! ## What the price says -/

/-- The price of data: what its supplier's rows cost, for travellers who are as many of each type. -/
structure Priced (d : Decimals) (cs : Casing) (data pricing : Value) (rows : List Value) (lines : List Line) :
    Prop where
  fares : data.field "supplierFares" = .arr rows
  nonempty : rows ≠ []
  few : rows.length ≤ 5
  quoted : List.Forall₂ (Line.Quoted d cs) rows lines
  nodup : (lines.map (·.kind)).Nodup
  charges : Charges pricing lines
  object : pricing.isObject
  travellers : ∀ travellers, (data.field "passengers").field "travellers" = .arr travellers →
    ∃ types, List.Forall₂ (fun t type => t.field "passengerType" = Value.str type) travellers types ∧
      ∃ fields, tally (types.map fun type => (cs.lower type, 1)) = .obj fields ∧
        fields.Perm (lines.map fun l => (l.kind, Value.ofInt l.count))

theorem Charges.setField {key : String} (h : Charges pricing lines) (hgross : "gross" ≠ key)
    (hpassengers : "passengers" ≠ key) (x : Value) : Charges (pricing.setField key x) lines := by
  constructor
  · rw [Value.field_setField_ne hgross]
    exact h.gross
  · rw [Value.field_setField_ne hpassengers]
    exact h.passengers
  · rw [Value.field_setField_ne hpassengers]
    exact h.each

theorem Charges.isObject (h : Charges pricing lines) : pricing.isObject := by
  have hgross := h.gross
  cases hget : pricing.get? "gross" with
  | some x => exact Value.isObject_of_get? hget
  | none =>
    obtain ⟨x, hx, -⟩ := hgross
    rw [Value.field, hget] at hx
    have hnull : decimal (Option.getD none Value.null) = none := by decide
    rw [hnull] at hx
    cases hx

theorem price_ok (hd : Cents d) {t : Tariff} {assigned : String} (h : price d cs t assigned data = .ok pricing) :
    ∃ rows lines, Priced d cs data pricing rows lines := by
  simp only [price, boundedArray, bind_eq_ok, fetch_eq_ok, ensure_eq_ok, pure_eq_ok, exists_const,
    Option.filter_eq_some_iff, Value.asArray?_eq_some, decide_eq_true_eq] at h
  obtain ⟨owner, -, client, -, currency, -, ⟨rule, version⟩, -, rows, ⟨hrows, hnonempty, hfew⟩, s, hs,
    supplierGross, -, supplierPayable, -, -, ⟨⟩, htravellers, tier, -, pricing, hpricing, rfl⟩ := h
  have hstart : Supplied.Holds d ⟨.object [], .object [], .object [], ofInt 0, ofInt 0⟩ [] :=
    ⟨List.nodup_nil, ⟨[], rfl, .refl _⟩, ⟨[], rfl, .refl _⟩, rfl, fun _ hl => absurd hl List.not_mem_nil,
      by rw [toRat_ofInt]; simp [faceTotal]⟩
  obtain ⟨lines, hquoted, hholds⟩ := supplierRows_hold hstart hs
  rw [List.nil_append] at hholds
  have hcounts : ∀ l ∈ lines, 0 < l.count ∧ l.count ≤ 20 := by
    intro l hl
    obtain ⟨row, -, hrow⟩ := exists_left hquoted hl
    exact ⟨hrow.positive, hrow.few⟩
  have hcharges := snapshot_charges hd hholds hcounts hpricing
  refine ⟨rows, lines, hrows, hnonempty, hfew, hquoted, hholds.nodup, ?_, ?_, ?_⟩
  · exact (hcharges.setField (by decide) (by decide) _).setField (by decide) (by decide) _
  · exact Value.isObject_setField (Value.isObject_setField hcharges.isObject)
  · intro travellers harray
    rw [checkTravellers, harray] at htravellers
    simp only [Value.asArray?, bind_eq_ok, ensure_eq_ok] at htravellers
    obtain ⟨types, htypes, htally⟩ := htravellers
    obtain ⟨fields, hfields, hperm⟩ := hholds.counts
    refine ⟨types, (mapM_eq_ok.mp htypes).imp fun t type htype => ?_, fields, htally.trans hfields, hperm⟩
    simp only [strField, fetch_eq_ok, Option.filter_eq_some_iff, Value.asStr?_eq_some] at htype
    exact htype.1

end ShaponTravels.Imports
