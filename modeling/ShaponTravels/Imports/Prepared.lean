import ShaponTravels.Imports.Pricing
import ShaponTravels.Wallet.Amounts

/-!
# Prepared — what a run saves of an import that is priced

Whatever is done to an import after it was prepared, the fares, the price, the travellers and the itinerary
of its data are the ones that were accepted.
-/

namespace ShaponTravels.Imports

open Library Pricing BigDecimal
open Booking (Casing)

variable {d : Decimals} {cs : Casing} {data data' : Value} {rows : List Value} {lines : List Line} {gross : Int}

/-- Data that was accepted with its price: rows and lines that come to the gross. -/
structure Accepted (d : Decimals) (cs : Casing) (gross : Int) (data : Value) (rows : List Value)
    (lines : List Line) : Prop where
  priced : Priced d cs data (data.field "rustPricing") rows lines
  amount : faceTotal lines = gross
  max : gross ≤ 99999999999999
  travellers : ∃ travellers, (data.field "passengers").field "travellers" = .arr travellers
  legs : ∃ legs, (data.field "itinerary").field "legs" = .arr legs

/-- The fields of the data that say what was accepted. -/
def acceptedKeys : List String := ["supplierFares", "rustPricing", "passengers", "itinerary"]

theorem Accepted.congr (h : Accepted d cs gross data rows lines)
    (hsame : ∀ key ∈ acceptedKeys, data'.field key = data.field key) : Accepted d cs gross data' rows lines := by
  have hfares := hsame "supplierFares" (by decide)
  have hpricing := hsame "rustPricing" (by decide)
  have hpassengers := hsame "passengers" (by decide)
  have hitinerary := hsame "itinerary" (by decide)
  refine ⟨?_, h.amount, h.max, ?_, ?_⟩
  · rw [hpricing]
    obtain ⟨hrows, hne, hfew, hquoted, hnodup, hcharges, hobject, htravellers⟩ := h.priced
    refine ⟨hfares.trans hrows, hne, hfew, hquoted, hnodup, hcharges, hobject, ?_⟩
    rw [hpassengers]
    exact htravellers
  · rw [hpassengers]
    exact h.travellers
  · rw [hitinerary]
    exact h.legs

theorem Accepted.setField {key : String} (h : Accepted d cs gross data rows lines) (hkey : key ∉ acceptedKeys)
    (x : Value) : Accepted d cs gross (data.setField key x) rows lines :=
  h.congr fun _ hk => Value.field_setField_ne fun heq => hkey (heq ▸ hk)

/-! ## Preparing -/

theorem field_withoutTimes {key : String}
    (hkey : key ∉ ["importedAt", "retrievedAt", "pricingCalculatedAt", "supplierEvidenceTimestamp"]) :
    (withoutTimes data).field key = data.field key := by
  have hget : (withoutTimes data).get? key = data.get? key := by
    cases data with
    | obj fields =>
      show ((fields.filter _).find? _).map Prod.snd = (fields.find? _).map Prod.snd
      rw [List.find?_filter]
      congr 2
      funext f
      by_cases hf : f.1 = key
      · simp [hf, hkey]
      · simp [hf]
    | _ => rfl
  rw [Value.field, hget]
  rfl

theorem isObject_of_fares (h : data.field "supplierFares" = .arr rows) : data.isObject := by
  cases hget : data.get? "supplierFares" with
  | some x => exact Value.isObject_of_get? hget
  | none =>
    rw [Value.field, hget] at h
    cases h

/-- The sources that are priced here. -/
def PricedSource (source : String) : Prop := source = "SUPPLIER_API" ∨ source = "IMP_EXP"

/-- The prices a command reads are those of `price`. -/
def Surroundings.Prices (d : Decimals) (cs : Casing) (env : Surroundings) : Prop :=
  ∃ tariff, env.price = Imports.price d cs tariff

theorem validate_ok {desk : Desk} {now : Int} (h : validate desk now data = .ok ()) :
    (∃ travellers, (data.field "passengers").field "travellers" = .arr travellers) ∧
      ∃ legs, (data.field "itinerary").field "legs" = .arr legs := by
  simp only [validate, boundedArray, bind_eq_ok, fetch_eq_ok, ensure_eq_ok, exists_const,
    Option.filter_eq_some_iff, Value.asArray?_eq_some] at h
  obtain ⟨-, _, -, _, -, code, -, _, -, -, lifecycle, -, travellers, ⟨htravellers, -⟩, _, -, legs, ⟨hlegs, -⟩, -⟩ := h
  exact ⟨⟨travellers, htravellers⟩, legs, hlegs⟩

/-- What is priced is accepted with its price. -/
theorem priced_accepted (hd : Cents d) {env : Surroundings} (henv : env.Prices d cs) {p : Prepare}
    (hsource : PricedSource p.source) (hmax : p.grossMinor ≤ 99999999999999)
    (htravellers : ∃ travellers, (p.data.field "passengers").field "travellers" = .arr travellers)
    (hlegs : ∃ legs, (p.data.field "itinerary").field "legs" = .arr legs) (h : priced env p = .ok data) :
    ∃ rows lines, Accepted d cs p.grossMinor data rows lines := by
  obtain ⟨tariff, hprice⟩ := henv
  unfold PricedSource at hsource
  rw [priced, if_pos hsource, hprice] at h
  simp only [bind_eq_ok, fetch_eq_ok, ensure_eq_ok, pure_eq_ok, exists_const, Value.asStr?_eq_some] at h
  obtain ⟨pricing, hpricing, payable, -, payableMinor, -, -, text, htext, gross, hgross, heq, supplier, -, -, rfl⟩ := h
  obtain ⟨rows, lines, hpriced⟩ := price_ok hd hpricing
  have hsum : faceTotal lines = gross := by
    obtain ⟨x, hx, hvalue⟩ := hpriced.charges.gross
    rw [htext] at hx
    have hcents := hvalue.symm.trans (Wallet.toRat_of_majorToMinor hgross hx)
    have hcast : (faceTotal lines : ℚ) = gross := by linarith
    exact_mod_cast hcast
  have hobject := isObject_of_fares hpriced.fares
  have hsaved : (p.data.setField "rustPricing" pricing).field "rustPricing" = pricing :=
    Value.field_setField_self hobject
  have hother : ∀ key, key ≠ "rustPricing" → (p.data.setField "rustPricing" pricing).field key = p.data.field key :=
    fun key hkey => Value.field_setField_ne hkey
  refine ⟨rows, lines, ?_, by omega, hmax, ?_, ?_⟩
  · rw [hsaved]
    obtain ⟨hrows, hne, hfew, hquoted, hnodup, hcharges, hpricingObject, hparty⟩ := hpriced
    refine ⟨(hother _ (by decide)).trans hrows, hne, hfew, hquoted, hnodup, hcharges, hpricingObject, ?_⟩
    rw [hother _ (by decide)]
    exact hparty
  · rw [hother _ (by decide)]
    exact htravellers
  · rw [hother _ (by decide)]
    exact hlegs

/-! ## The steps -/

variable {desk : Desk} {env : Surroundings} {db db' : Db} {actor : Principal} {draw : Draw}

/-- Quotes and imports of a priced source are accepted. -/
structure Sound (d : Decimals) (cs : Casing) (db : Db) : Prop where
  quotes : ∀ q ∈ db.quotes, PricedSource q.source → ∃ rows lines, Accepted d cs q.grossMinor q.data rows lines
  imports : ∀ b ∈ db.imports, PricedSource b.source → ∃ rows lines, Accepted d cs b.grossMinor b.data rows lines

theorem prepare_sound (hd : Cents d) (henv : env.Prices d cs) {p : Prepare} (hs : Sound d cs db)
    (h : prepare desk env db actor p draw = .ok db') : Sound d cs db' := by
  simp only [prepare, bind_eq_ok, ensure_eq_ok, fetch_eq_ok, pure_eq_ok, exists_const] at h
  obtain ⟨⟨-, -, -, -, hbounds⟩, ⟨⟩, hvalid, -, data, hdata, target, -, -, agency, -, reference, -, currency, -, -, -,
    rfl⟩ := h
  refine ⟨?_, hs.imports⟩
  intro q hq hsource
  rcases List.mem_append.mp hq with hq | hq
  · exact hs.quotes q hq hsource
  · rw [List.mem_singleton.mp hq] at hsource ⊢
    obtain ⟨htravellers, hlegs⟩ := validate_ok hvalid
    obtain ⟨rows, lines, haccepted⟩ := priced_accepted hd henv hsource (hbounds _ List.mem_cons_self) htravellers hlegs
      hdata
    refine ⟨rows, lines, Accepted.setField (haccepted.congr fun key hkey => field_withoutTimes ?_) (by decide) _⟩
    revert hkey
    revert key
    decide

theorem authorize_sound (hs : Sound d cs db) {quoteId confirmationId : Uuid}
    (h : authorize env db actor quoteId confirmationId = .ok db') : Sound d cs db' := by
  simp only [authorize, bind_eq_ok, fetch_eq_ok, ensure_eq_ok, exists_const] at h
  obtain ⟨a, -, b, -, -, h⟩ := h
  have hdb : db' = { db with
      quotes := modify Quote.id quoteId (fun q => { q with authorized := true }) db.quotes } := by
    split at h
    · simp only [bind_eq_ok, fetch_eq_ok, ensure_eq_ok, pure_eq_ok, exists_const] at h
      obtain ⟨_, -, -, -, rfl⟩ := h
      rfl
    · exact (pure_eq_ok.mp h).symm
  rw [hdb]
  refine ⟨?_, hs.imports⟩
  intro q hq hsource
  rcases modify_cases hq with ⟨hq, -⟩ | ⟨q', hq', -, rfl⟩
  · exact hs.quotes q hq hsource
  · exact hs.quotes q' hq' hsource

theorem importFresh_sound (hs : Sound d cs db) {q : Quote} (hq : q ∈ db.quotes) {c : Import}
    (h : importFresh desk env db actor q c draw = .ok db') : Sound d cs db' := by
  simp only [importFresh, insertImport, checkAuthorization, bind_eq_ok, fetch_eq_ok, ensure_eq_ok, pure_eq_ok,
    exists_const] at h
  obtain ⟨-, subject, -, current, -, -, -, -, -, reference, -, -, paid, -, status, -, _, ⟨-, -, -, -, -, rfl⟩, -, _, -,
    rfl⟩ := h
  refine ⟨hs.quotes, ?_⟩
  intro b hb hsource
  rcases List.mem_append.mp hb with hb | hb
  · exact hs.imports b hb hsource
  · rw [List.mem_singleton.mp hb] at hsource ⊢
    exact hs.quotes q hq hsource

/-- The evidence of tickets is no part of what was accepted. -/
theorem settled_accepted {b : ImportBooking} {c : StatusChange} {status : Wallet.ImportStatus}
    {settled : Option Uuid × Wallet.WalletDb × Value} (h : Accepted d cs gross b.data rows lines)
    (hsettled : settleStatus desk env db actor b c status draw = .ok settled) :
    Accepted d cs gross settled.2.2 rows lines := by
  unfold settleStatus at hsettled
  split at hsettled
  · simp only [bind_eq_ok, pure_eq_ok] at hsettled
    obtain ⟨-, -, charged, -, rfl⟩ := hsettled
    exact (h.setField (by decide) _).setField (by decide) _
  · rw [← pure_eq_ok.mp hsettled]
    exact h

theorem changeStatus_sound (hs : Sound d cs db) {c : StatusChange}
    (h : changeStatus desk env db actor c draw = .ok db') : Sound d cs db' := by
  simp only [changeStatus, bind_eq_ok, fetch_eq_ok, ensure_eq_ok, pure_eq_ok, exists_const] at h
  obtain ⟨b, hb, -, -, status, -, settled, hsettled, version, -, _, -, rfl⟩ := h
  refine ⟨hs.quotes, ?_⟩
  intro b' hb' hsource
  rcases modify_cases hb' with ⟨hb', -⟩ | ⟨x, -, -, rfl⟩
  · exact hs.imports b' hb' hsource
  · obtain ⟨rows, lines, haccepted⟩ := hs.imports b (List.mem_of_find?_eq_some hb) hsource
    exact ⟨rows, lines, (settled_accepted haccepted hsettled).setField (by decide) _⟩

/-! ## A run -/

/-- A step keeps what was accepted, if its prices are those of `price`. -/
theorem step_sound (hd : Cents d) {ev : Event}
    (hprices : ∀ env actor command draw, ev = .command env actor command draw → env.Prices d cs) (hs : Sound d cs db)
    (h : step desk db ev = .ok db') : Sound d cs db' := by
  cases ev with
  | command env actor command draw =>
    have henv := hprices env actor command draw rfl
    simp only [step, execute, bind_eq_ok, ensure_eq_ok, exists_const] at h
    obtain ⟨-, h⟩ := h
    cases command with
    | prepare p => exact prepare_sound hd henv hs h
    | authorize quoteId confirmationId => exact authorize_sound hs h
    | importBooking c =>
      simp only [importBooking, bind_eq_ok, fetch_eq_ok, pure_eq_ok] at h
      obtain ⟨⟨replay, next⟩, ⟨q, hq, hnext⟩, rfl⟩ := h
      split at hnext
      · simp only [bind_eq_ok, ensure_eq_ok, fetch_eq_ok, pure_eq_ok, exists_const] at hnext
        obtain ⟨-, _, -, _, -, heq⟩ := hnext
        obtain rfl : db = next := congrArg Prod.snd heq
        exact hs
      · simp only [bind_eq_ok, pure_eq_ok] at hnext
        obtain ⟨fresh, hfresh, heq⟩ := hnext
        obtain rfl : fresh = next := congrArg Prod.snd heq
        exact importFresh_sound hs (List.mem_of_find?_eq_some hq) hfresh
    | status c => exact changeStatus_sound hs h
  | wallet subjects call =>
    simp only [step, bind_eq_ok, ensure_eq_ok, pure_eq_ok, exists_const] at h
    obtain ⟨-, wallet, -, rfl⟩ := h
    exact ⟨hs.quotes, hs.imports⟩
  | status owner status =>
    cases h
    exact ⟨hs.quotes, hs.imports⟩

/-- The prices of a run are those of `price`. -/
def PricedRun (d : Decimals) (cs : Casing) (t : List (Transition Db Event)) : Prop :=
  ∀ r ∈ t, ∀ env actor command draw, r.label = .command env actor command draw → env.Prices d cs

theorem run_sound (hd : Cents d) {s₀ : Db} {t : List (Transition Db Event)} (hinit : (machine desk).init s₀)
    (hrun : (machine desk).Run s₀ t db) (hprices : PricedRun d cs t) : Sound d cs db := by
  induction hrun with
  | nil =>
    obtain rfl : _ = Db.empty := hinit
    exact ⟨fun _ hq => absurd hq List.not_mem_nil, fun _ hb => absurd hb List.not_mem_nil⟩
  | snoc _ hstep ih =>
    refine step_sound hd ?_ (ih fun r hr => hprices r (List.mem_append_left _ hr)) hstep
    exact hprices _ (List.mem_append_right _ List.mem_cons_self)

end ShaponTravels.Imports
