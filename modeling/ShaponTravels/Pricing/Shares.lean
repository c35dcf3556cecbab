import ShaponTravels.Pricing.Breakdown

/-!
# Shares — what a tier's share leaves to pay

A share of the discount is rounded for each passenger.  It never leaves the range from the published
fare to the supplier's with its markup, and it grows with the share.  The root adds up what was rounded.
-/

namespace ShaponTravels

namespace BigDecimal

/-- The crate divides a number of two places or fewer by a hundred exactly, if it has at most `limit` for its
digits. -/
def Decimals.Hundredths (d : Decimals) (limit : Nat) : Prop :=
  ∀ a : BigDecimal, 0 ≤ a.scale → a.scale ≤ 2 → a.digits.natAbs ≤ limit →
    (d.quotient a (ofInt 100)).toRat = a.toRat / 100

end BigDecimal

namespace Pricing

open Library BigDecimal

variable {d : Decimals} {original gross pricing pricing' : Value} {tier : Option Tier}
  {share share' : Int} {currency : String} {markup : Markup}

/-! ## What a share is taken of -/

/-- The supplier's fare with the markup on it. -/
def markedUp (supplier : BigDecimal) (markup : Markup) : BigDecimal :=
  (price ⟨supplier, ofInt 0, ofInt 0, ofInt 0, 1⟩ markup).total

/-- A passenger kind before a tier shares in its discount: for one passenger the published fare and the
supplier's with its markup, in minor units. -/
structure Offer where
  kind : String
  count : Nat
  gross : Int
  priced : Int
  deriving DecidableEq

namespace Offer

/-- The share of the discount, or of the deficit, rounded to minor units. -/
def commission (share : Int) (o : Offer) : Int := BigDecimal.minor ⟨(o.gross - o.priced) * share, 4⟩

def payable (share : Int) (o : Offer) : Int := o.gross - o.commission share

/-- The row of the quote. -/
def row (share : Int) (o : Offer) : String × Value :=
  (o.kind, .object [("count", .ofInt o.count), ("gross", .str (twoPlaces o.gross)),
    ("commission", .str (twoPlaces (o.commission share))), ("payable", .str (twoPlaces (o.payable share)))])

/-- A hundred times the discount or deficit is at most `limit`. -/
def Within (limit : Nat) (o : Offer) : Prop := (100 * (o.gross - o.priced)).natAbs ≤ limit

end Offer

/-- The offer of an entry of the passenger counts. -/
def offerOf (original gross : Value) (markup : Markup) (entry : String × Value) :
    Except ApiError (Option Offer) := do
  let count ← fetch entry.2.asU64? invalidTier
  if count = 0 then return none
  else
    let supplier ← tierMoney ((fareOf original entry.1).field "totalPrice")
    let published ← tierMoney ((fareOf gross entry.1).field "totalPrice")
    return some ⟨entry.1, count, published.minor, (markedUp supplier markup).minor⟩

/-- The offers of an item, whatever share is taken of them. -/
def offersOf (original gross : Value) (markup : Markup) : Except ApiError (List Offer) := do
  let counts ← fetch (original.field "passengerCounts").asObject? invalidTier
  let found ← (Value.entries counts).mapM (offerOf original gross markup)
  return found.reduceOption

/-- The quote of an offer at a share. -/
structure Offer.Quoted (share : Int) (o : Offer) (q : KindQuote) : Prop where
  kind : q.kind = o.kind
  count : q.count = o.count
  gross : IsMinor q.gross o.gross
  commission : IsMinor q.commission (o.commission share)
  payable : IsMinor q.payable (o.payable share)

theorem markedUp_minor (supplier : BigDecimal) (markup : Markup) :
    IsMinor (markedUp supplier markup) (markedUp supplier markup).minor :=
  (IsMinor.rounded _).self

/-- The discount of a tier in minor units; without a tier there is none, and no share either. -/
theorem pool_ok {fare : Value} {supplier gross p : BigDecimal} {units : Int} (hgross : IsMinor gross units)
    (h : pool fare supplier gross tier markup = .ok p) :
    IsMinor p (units - (markedUp supplier markup).minor) ∨ tier = none ∧ p = ofInt 0 := by
  cases tier with
  | none =>
    cases h
    exact .inr ⟨rfl, rfl⟩
  | some tier =>
    simp only [pool, bind_eq_ok, pure_eq_ok] at h
    obtain ⟨base, -, taxes, -, ait, -, rfl⟩ := h
    exact .inl (hgross.sub (markedUp_minor supplier markup))

/-- The quote as the code computes it from the discount `p` of the offer. -/
structure Offer.Shared (d : Decimals) (share : Int) (o : Offer) (q : KindQuote) : Prop where
  kind : q.kind = o.kind
  count : q.count = o.count
  gross : IsMinor q.gross o.gross
  discount : ∃ p, (IsMinor p (o.gross - o.priced) ∨ share = 0 ∧ p = ofInt 0) ∧
    q.commission = (d.quotient (p.mul (ofInt share)) (ofInt 100)).withScaleRound 2
  payable : q.payable = q.gross.sub q.commission

/-- A kind that is quoted at a share is one of the offers. -/
theorem quoteKind_offer (hread : Readable d original gross) (hplain : d.Plain) (htier : tier = none → share = 0)
    {counts : List (String × Value)} (hcounts : original.field "passengerCounts" = .obj counts)
    {entry : String × Value} (hentry : entry ∈ Value.entries counts) {found : Option KindQuote}
    (h : quoteKind d original gross tier share markup entry = .ok found) :
    ∃ offer, offerOf original gross markup entry = .ok offer ∧ Option.Rel (Offer.Shared d share) offer found := by
  simp only [quoteKind, bind_eq_ok, fetch_eq_ok] at h
  obtain ⟨count, hcount, h⟩ := h
  split at h
  · rename_i hzero
    cases h
    refine ⟨none, ?_, .none⟩
    rw [offerOf, hcount]
    simp only [fetch_some, ok_bind, if_pos hzero]
    rfl
  · rename_i hne
    simp only [bind_eq_ok, ensure_eq_ok, exists_const, pure_eq_ok] at h
    obtain ⟨supplier, hsupplier, total, htotal, discount, hpool, -, -, rfl⟩ := h
    obtain ⟨units, hunits⟩ := hread.kind counts hcounts entry hentry count hcount hne
    have hpublished : tierMoney ((fareOf gross entry.1).field "totalPrice") = .ok total := htotal
    have hfare : tierMoney ((fareOf original entry.1).field "totalPrice") = .ok supplier := hsupplier
    have hgross : IsMinor total total.minor := by
      have hread := hpublished
      rw [hunits] at hread
      exact (tierMoney_minor hplain hread).self
    have hoffer : offerOf original gross markup entry =
        .ok (some ⟨entry.1, count, total.minor, (markedUp supplier markup).minor⟩) := by
      rw [offerOf, hcount, hfare, hpublished]
      simp only [fetch_some, ok_bind, if_neg hne]
      rfl
    exact ⟨_, hoffer, .some ⟨rfl, rfl, hgross, ⟨discount, (pool_ok hgross hpool).imp_right fun hnone =>
      ⟨htier hnone.1, hnone.2⟩, rfl⟩, rfl⟩⟩

/-- A number of four places is a hundredth of one with two. -/
theorem toRat_four (n : Int) : toRat ⟨n, 4⟩ = (n : ℚ) / 100 / 100 := by
  have hpow : (10 : ℚ) ^ (-4 : Int) = (100 : ℚ)⁻¹ * (100 : ℚ)⁻¹ := by norm_num
  rw [toRat, hpow, div_eq_mul_inv, div_eq_mul_inv, mul_assoc]

/-- Where the crate divides exactly, the commission is the share rounded. -/
theorem Offer.Shared.quoted {limit : Nat} (hd : d.Hundredths limit) {o : Offer} {q : KindQuote}
    (hlow : 0 ≤ share) (hhigh : share ≤ 100) (hwithin : o.Within limit) (h : o.Shared d share q) :
    o.Quoted share q := by
  obtain ⟨p, hpool, hcommission⟩ := h.discount
  have hshared : IsMinor (p.mul (ofInt share)) ((o.gross - o.priced) * share) := by
    rcases hpool with hpool | ⟨rfl, rfl⟩
    · exact hpool.mul share
    · -- Without a share the product is zero, whatever the discount.
      rw [Int.mul_zero]
      exact IsMinor.zero.mul 0
  have hdigits : (p.mul (ofInt share)).digits.natAbs ≤ limit := by
    refine le_trans hshared.digits_le (le_trans ?_ hwithin)
    rw [Int.natAbs_mul, Int.natAbs_mul, Nat.mul_comm]
    exact Nat.mul_le_mul_right _ (by omega)
  have hquotient := hd _ hshared.places.1 hshared.places.2 hdigits
  rw [hshared.value, ← toRat_four] at hquotient
  have hround := IsMinor.rounded (d.quotient (p.mul (ofInt share)) (ofInt 100))
  rw [BigDecimal.minor, withScaleRound_digits, hquotient, ← withScaleRound_digits, ← hcommission] at hround
  refine ⟨h.kind, h.count, h.gross, hround, ?_⟩
  rw [h.payable]
  exact h.gross.sub hround

/-! ## The quote at a share -/

/-- An amount of every passenger. -/
def allPassengers (amount : Offer → Int) (offers : List Offer) : Int :=
  (offers.map fun o => amount o * (o.count : Int)).sum

/-- A quote sells the offers at a share: a row for each, and their totals at the root. -/
structure Sold (share : Int) (offers : List Offer) (pricing : Value) : Prop where
  rows : pricing.field "passengers" = .object (offers.map (Offer.row share))
  gross : pricing.field "gross" = .str (twoPlaces (allPassengers Offer.gross offers))
  commission : pricing.field "commission" = .str (twoPlaces (allPassengers (Offer.commission share) offers))
  payable : pricing.field "payable" = .str (twoPlaces (allPassengers (Offer.payable share) offers))

theorem allPassengers_payable (share : Int) (offers : List Offer) :
    allPassengers (Offer.payable share) offers =
      allPassengers Offer.gross offers - allPassengers (Offer.commission share) offers := by
  induction offers with
  | nil => rfl
  | cons o offers ih =>
    simp only [allPassengers, Offer.payable, List.map_cons, List.sum_cons, Int.sub_mul] at ih ⊢
    omega

theorem allPassengers_le {f g : Offer → Int} {offers : List Offer} (h : ∀ o ∈ offers, f o ≤ g o) :
    allPassengers f offers ≤ allPassengers g offers :=
  List.sum_le_sum fun o ho => Int.mul_le_mul_of_nonneg_right (h o ho) (Int.natCast_nonneg _)

theorem allPassengers_congr {f g : Offer → Int} {offers : List Offer} (h : ∀ o ∈ offers, f o = g o) :
    allPassengers f offers = allPassengers g offers :=
  Int.le_antisymm (allPassengers_le fun o ho => Int.le_of_eq (h o ho))
    (allPassengers_le fun o ho => Int.le_of_eq (h o ho).symm)

theorem Offer.Quoted.toField (hplain : d.Plain) {o : Offer} {q : KindQuote} (h : o.Quoted share q) :
    q.toField d = o.row share := by
  rw [KindQuote.toField, Offer.row, h.kind, h.count, hplain.fixed _ _ h.gross, hplain.fixed _ _ h.commission,
    hplain.fixed _ _ h.payable]

theorem fields_sold (hplain : d.Plain) {offers : List Offer} {quotes : List KindQuote}
    (h : List.Forall₂ (Offer.Quoted share) offers quotes) :
    quotes.map (KindQuote.toField d) = offers.map (Offer.row share) := by
  induction h with
  | nil => rfl
  | cons hq _ ih => rw [List.map_cons, List.map_cons, ih, hq.toField hplain]

/-- The same offers are sold at every share that is quoted. -/
theorem snapshot_sold {limit : Nat} (hd : d.Hundredths limit) (hplain : d.Plain)
    (hread : Readable d original gross)
    (hwithin : ∀ offers, offersOf original gross markup = .ok offers → ∀ o ∈ offers, o.Within limit)
    (h : snapshot d original gross tier share currency markup = .ok pricing) :
    0 ≤ share ∧ share ≤ 100 ∧
      ∃ offers, offersOf original gross markup = .ok offers ∧ Sold share offers pricing := by
  simp only [snapshot, bind_eq_ok, ensure_eq_ok, fetch_eq_ok, exists_const, pure_eq_ok,
    Value.asObject?_eq_some] at h
  obtain ⟨⟨hlow, hhigh, htier⟩, -, counts, hcounts, found, hfound, claimed, -, -, rfl⟩ := h
  have hnone : tier = none → share = 0 := by
    rintro rfl
    simpa using htier
  obtain ⟨offers, hoffers, hrel⟩ := mapM_related hfound fun entry hentry x hquote =>
    quoteKind_offer hread hplain hnone hcounts hentry hquote
  have hall : offersOf original gross markup = .ok offers.reduceOption := by
    rw [offersOf, hcounts]
    simp only [Value.asObject?, fetch_some, ok_bind, hoffers]
    rfl
  have hquoted : List.Forall₂ (Offer.Quoted share) offers.reduceOption found.reduceOption :=
    ((List.forall₂_and_left _ _).mpr ⟨hwithin _ hall, forall₂_reduceOption hrel⟩).imp
      fun _ _ hshared => hshared.2.quoted hd hlow hhigh hshared.1
  refine ⟨hlow, hhigh, offers.reduceOption, hall, ?_⟩
  · have hfields := fields_sold hplain hquoted
    have hgross : IsMinor (weighted KindQuote.gross KindQuote.count found.reduceOption)
        (allPassengers Offer.gross offers.reduceOption) :=
      weighted_isMinor (hquoted.flip.imp fun _ _ hq => ⟨hq.count, hq.gross⟩)
    have hcommission : IsMinor (weighted KindQuote.commission KindQuote.count found.reduceOption)
        (allPassengers (Offer.commission share) offers.reduceOption) :=
      weighted_isMinor (hquoted.flip.imp fun _ _ hq => ⟨hq.count, hq.commission⟩)
    have hpayable := hgross.sub hcommission
    rw [← allPassengers_payable] at hpayable
    constructor
    all_goals
      rw [field_enrich (by decide), Value.field, Value.get?_object]
    · simp [hfields]
    · simp [hplain.fixed _ _ hgross]
    · simp [hplain.fixed _ _ hcommission]
    · simp [hplain.fixed _ _ hpayable]

/-! ## Bounds -/

namespace Offer

variable {o : Offer}

/-- What rounds to a commission keeps its order, and is exact where nothing or everything is shared. -/
theorem commission_le {o' : Offer} (h : (o.gross - o.priced) * share ≤ (o'.gross - o'.priced) * share') :
    o.commission share ≤ o'.commission share' := by
  refine withScaleRound_mono ?_ 2
  rw [toRat_four, toRat_four]
  have hcast : (((o.gross - o.priced) * share : Int) : ℚ) ≤ ((o'.gross - o'.priced) * share' : Int) :=
    Int.cast_le.mpr h
  linarith

theorem commission_hundred : o.commission 100 = o.gross - o.priced := by
  refine minor_of_toRat ?_
  rw [toRat_four]
  push_cast
  ring

theorem commission_zero : o.commission 0 = 0 := by
  refine minor_of_toRat ?_
  rw [toRat_four]
  simp

theorem payable_zero : o.payable 0 = o.gross := by
  rw [payable, commission_zero, Int.sub_zero]

theorem payable_hundred : o.payable 100 = o.priced := by
  rw [payable, commission_hundred]
  omega

/-- With a discount the payable falls as the share grows. -/
theorem payable_falling (h : o.priced ≤ o.gross) (hshare : share ≤ share') :
    o.payable share' ≤ o.payable share := by
  have hpool : 0 ≤ o.gross - o.priced := by omega
  have hcommission : o.commission share ≤ o.commission share' :=
    commission_le (Int.mul_le_mul_of_nonneg_left hshare hpool)
  unfold payable
  omega

/-- With a deficit it rises. -/
theorem payable_rising (h : o.gross ≤ o.priced) (hshare : share ≤ share') :
    o.payable share ≤ o.payable share' := by
  have hpool : o.gross - o.priced ≤ 0 := by omega
  have hcommission : o.commission share' ≤ o.commission share :=
    commission_le (Int.mul_le_mul_of_nonpos_left hpool hshare)
  unfold payable
  omega

end Offer

/-- What is paid is what the share leaves of the gross. -/
structure Splits (gross priced commission payable share : Int) : Prop where
  sum : gross = commission + payable
  nothing : share = 0 → payable = gross
  everything : share = 100 → payable = priced

/-- What is paid at a share and at one that is no smaller. -/
structure Ordered (gross priced payable payable' : Int) : Prop where
  between : min gross priced ≤ payable ∧ payable ≤ max gross priced
  falling : priced ≤ gross → payable' ≤ payable
  rising : gross ≤ priced → payable ≤ payable'

theorem Offer.splits (o : Offer) :
    Splits o.gross o.priced (o.commission share) (o.payable share) share where
  sum := by
    unfold Offer.payable
    omega
  nothing h := by rw [h, payable_zero]
  everything h := by rw [h, payable_hundred]

theorem Offer.ordered (hlow : 0 ≤ share) (hshare : share ≤ share') (hhigh : share' ≤ 100)
    (o : Offer) : Ordered o.gross o.priced (o.payable share) (o.payable share') where
  between := by
    rcases Int.le_total o.priced o.gross with h | h
    · have hfrom := payable_falling h hlow
      have hto := payable_falling h (Int.le_trans hshare hhigh)
      rw [payable_zero] at hfrom
      rw [payable_hundred] at hto
      exact ⟨Int.le_trans (min_le_right _ _) hto, Int.le_trans hfrom (le_max_left _ _)⟩
    · have hfrom := payable_rising h hlow
      have hto := payable_rising h (Int.le_trans hshare hhigh)
      rw [payable_zero] at hfrom
      rw [payable_hundred] at hto
      exact ⟨Int.le_trans (min_le_left _ _) hfrom, Int.le_trans hto (le_max_right _ _)⟩
  falling h := payable_falling h hshare
  rising h := payable_rising h hshare

theorem splits_all (offers : List Offer) :
    Splits (allPassengers Offer.gross offers) (allPassengers Offer.priced offers)
      (allPassengers (Offer.commission share) offers) (allPassengers (Offer.payable share) offers)
      share where
  sum := by
    rw [allPassengers_payable]
    omega
  nothing h := allPassengers_congr fun o _ => (o.splits).nothing h
  everything h := allPassengers_congr fun o _ => (o.splits).everything h

/-- All passengers have a discount, or all have a deficit. -/
def OneSided (offers : List Offer) : Prop :=
  (∀ o ∈ offers, o.priced ≤ o.gross) ∨ ∀ o ∈ offers, o.gross ≤ o.priced

theorem between_all (hlow : 0 ≤ share) (hhigh : share ≤ 100) {offers : List Offer}
    (h : OneSided offers) :
    min (allPassengers Offer.gross offers) (allPassengers Offer.priced offers) ≤
        allPassengers (Offer.payable share) offers ∧
      allPassengers (Offer.payable share) offers ≤
        max (allPassengers Offer.gross offers) (allPassengers Offer.priced offers) := by
  rcases h with h | h
  · have hlower : allPassengers Offer.priced offers ≤ allPassengers (Offer.payable share) offers :=
      allPassengers_le fun o ho => Offer.payable_hundred (o := o) ▸ Offer.payable_falling (h o ho) hhigh
    have hupper : allPassengers (Offer.payable share) offers ≤ allPassengers Offer.gross offers :=
      allPassengers_le fun o ho => Offer.payable_zero (o := o) ▸ Offer.payable_falling (h o ho) hlow
    exact ⟨Int.le_trans (min_le_right _ _) hlower, Int.le_trans hupper (le_max_left _ _)⟩
  · have hlower : allPassengers Offer.gross offers ≤ allPassengers (Offer.payable share) offers :=
      allPassengers_le fun o ho => Offer.payable_zero (o := o) ▸ Offer.payable_rising (h o ho) hlow
    have hupper : allPassengers (Offer.payable share) offers ≤ allPassengers Offer.priced offers :=
      allPassengers_le fun o ho => Offer.payable_hundred (o := o) ▸ Offer.payable_rising (h o ho) hhigh
    exact ⟨Int.le_trans (min_le_left _ _) hlower, Int.le_trans hupper (le_max_right _ _)⟩

/-- The totals keep the order where the passengers are on one side. -/
theorem ordered_all (hlow : 0 ≤ share) (hshare : share ≤ share') (hhigh : share' ≤ 100)
    {offers : List Offer} (h : OneSided offers) :
    Ordered (allPassengers Offer.gross offers) (allPassengers Offer.priced offers)
      (allPassengers (Offer.payable share) offers) (allPassengers (Offer.payable share') offers) := by
  have hbetween := between_all hlow (Int.le_trans hshare hhigh) h
  have hbetween' := between_all (Int.le_trans hlow hshare) hhigh h
  rcases h with h | h
  · have hfalls := allPassengers_le fun o ho => Offer.payable_falling (o := o) (h o ho) hshare
    refine ⟨hbetween, fun _ => hfalls, fun hle => ?_⟩
    -- The totals are equal, and nothing is left between them.
    have hpriced := allPassengers_le h
    omega
  · have hrises := allPassengers_le fun o ho => Offer.payable_rising (o := o) (h o ho) hshare
    refine ⟨hbetween, fun hle => ?_, fun _ => hrises⟩
    have hpriced := allPassengers_le h
    omega

/-! ## Snapshots of a projected fare -/

/-- A fare is sold at two shares: every passenger's payable is between the published fare and the
marked-up one and moves from the one to the other, and so does the total of passengers on one side. -/
theorem snapshot_shares {plan : Option Tier} {rule : Markup} {limit : Nat} (hplain : d.Plain)
    (hd : d.Hundredths limit) (hgross : projected d original plan rule = .ok gross)
    (hwithin : ∀ offers, offersOf original gross markup = .ok offers → ∀ o ∈ offers, o.Within limit)
    (h : snapshot d original gross tier share currency markup = .ok pricing)
    (h' : snapshot d original gross tier share' currency markup = .ok pricing')
    (hshare : share ≤ share') :
    ∃ offers, offersOf original gross markup = .ok offers ∧
      Sold share offers pricing ∧ Sold share' offers pricing' ∧
      (∀ o ∈ offers, Splits o.gross o.priced (o.commission share) (o.payable share) share ∧
        Ordered o.gross o.priced (o.payable share) (o.payable share')) ∧
      Splits (allPassengers Offer.gross offers) (allPassengers Offer.priced offers)
        (allPassengers (Offer.commission share) offers)
        (allPassengers (Offer.payable share) offers) share ∧
      (OneSided offers → Ordered (allPassengers Offer.gross offers) (allPassengers Offer.priced offers)
        (allPassengers (Offer.payable share) offers)
        (allPassengers (Offer.payable share') offers)) := by
  have hread := projected_readable hgross
  obtain ⟨hlow, -, offers, hoffers, hsold⟩ := snapshot_sold hd hplain hread hwithin h
  obtain ⟨-, hhigh, _, hsame, hsold'⟩ := snapshot_sold hd hplain hread hwithin h'
  rw [hoffers] at hsame
  cases hsame
  exact ⟨offers, hoffers, hsold, hsold',
    fun o _ => ⟨o.splits, o.ordered hlow hshare hhigh⟩,
    splits_all offers, ordered_all hlow hshare hhigh⟩

theorem sampleDecimals_hundredths (limit : Nat) : sampleDecimals.Hundredths limit := by
  intro a _ _ _
  show toRat ⟨a.digits, a.scale + 2⟩ = a.toRat / 100
  have hpow : (10 : ℚ) ^ (-(a.scale + 2)) = 10 ^ (-a.scale) * (100 : ℚ)⁻¹ := by
    rw [neg_add, zpow_add₀ (by norm_num)]
    norm_num
  rw [toRat, toRat, hpow, div_eq_mul_inv, mul_assoc]

/-- Half of a discount, and all of it. -/
theorem snapshot_shares_half : ∃ gross pricing pricing', sampleQuote 100 150 50 = .ok (gross, pricing) ∧
    sampleQuote 100 150 100 = .ok (gross, pricing') ∧ pricing.field "payable" = .str "125.00" ∧
    pricing'.field "payable" = .str "100.00" ∧
    ∃ offers, offersOf (sampleFare 100 150) gross (.fixed (ofInt 0)) = .ok offers ∧
      Sold 50 offers pricing ∧ Sold 100 offers pricing' := by
  have hhalf : (sampleQuote 100 150 50).map (fun x =>
      ((offersOf (sampleFare 100 150) x.1 (.fixed (ofInt 0))), x.2.field "payable")) =
      .ok (.ok [⟨"adt", 1, 15000, 10000⟩], .str "125.00") := by
    decide +kernel
  have hwhole : (sampleQuote 100 150 100).map (·.2.field "payable") = .ok (.str "100.00") := by
    decide +kernel
  obtain ⟨⟨gross, pricing⟩, hquote, hread⟩ := map_eq_ok.mp hhalf
  obtain ⟨hoffers, hpayable⟩ := Prod.mk.inj hread
  obtain ⟨⟨gross', pricing'⟩, hquote', hpayable'⟩ := map_eq_ok.mp hwhole
  obtain ⟨hprojected, hsnapshot⟩ := sampleQuote_ok hquote
  obtain ⟨hprojected', hsnapshot'⟩ := sampleQuote_ok hquote'
  rw [hprojected] at hprojected'
  cases hprojected'
  have hwithin : ∀ offers, offersOf (sampleFare 100 150) gross (.fixed (ofInt 0)) = .ok offers →
      ∀ o ∈ offers, o.Within 500000 := by
    intro offers hsame o ho
    obtain rfl := Except.ok.inj (hoffers.symm.trans hsame)
    rw [List.mem_singleton.mp ho]
    show (100 * (15000 - 10000) : Int).natAbs ≤ 500000
    decide
  obtain ⟨offers, hoffers', hsold, hsold', -⟩ := snapshot_shares sampleDecimals_plain
    (sampleDecimals_hundredths 500000) hprojected hwithin hsnapshot hsnapshot' (by decide)
  exact ⟨gross, pricing, pricing', hquote, hquote', hpayable, hpayable', offers, hoffers', hsold, hsold'⟩

/-- An adult with a discount of half a unit, and two children with half of that as a deficit. -/
def mixedFare : Value :=
  let fare (total base : String) : Value := .object
    [("totalPrice", .num total), ("basePrice", .num base), ("taxes", .num "0"), ("ait", .num "0")]
  .object [("totalPrice", .num "300"), ("bookingComponents", .arr [fare "300" "300.00"]),
    ("passengerCounts", .object [("adt", .ofInt 1), ("chd", .ofInt 2)]),
    ("passengerFares", .object [("adt", fare "100" "100.50"), ("chd", fare "100" "99.75")])]

/-- The offers and the totals of the mixed fare at a share. -/
def mixedQuote (share : Int) : Except ApiError (List Offer × Value) := do
  let gross ← (projected sampleDecimals mixedFare (some .basic) (.fixed (ofInt 0))).mapError
    fun _ => invalidTier
  let offers ← offersOf mixedFare gross (.fixed (ofInt 0))
  let quote ← snapshot sampleDecimals mixedFare gross (some .basic) share "BDT" (.fixed (ofInt 0))
  return (offers, quote)

/-- A discount rounded up and deficits rounded to nothing leave a total below the published one and the
marked-up one, which are the same; a larger share then raises it again. -/
theorem mixed_not_between : ∃ offers quote quote', mixedQuote 1 = .ok (offers, quote) ∧
    mixedQuote 100 = .ok (offers, quote') ∧
    allPassengers Offer.gross offers = 30000 ∧ allPassengers Offer.priced offers = 30000 ∧
    quote.field "gross" = .str (twoPlaces 30000) ∧ quote.field "payable" = .str (twoPlaces 29999) ∧
    quote'.field "payable" = .str (twoPlaces 30000) ∧ ¬ Ordered 30000 30000 29999 30000 := by
  have hone : (mixedQuote 1).map (fun x => (x.1, x.2.field "gross", x.2.field "payable")) =
      .ok ([⟨"adt", 1, 10050, 10000⟩, ⟨"chd", 2, 9975, 10000⟩],
        .str (twoPlaces 30000), .str (twoPlaces 29999)) := by
    decide +kernel
  have hall : (mixedQuote 100).map (fun x => (x.1, x.2.field "payable")) =
      .ok ([⟨"adt", 1, 10050, 10000⟩, ⟨"chd", 2, 9975, 10000⟩], .str (twoPlaces 30000)) := by
    decide +kernel
  obtain ⟨⟨offers, quote⟩, hquote, htexts⟩ := map_eq_ok.mp hone
  obtain ⟨⟨offers', quote'⟩, hquote', htexts'⟩ := map_eq_ok.mp hall
  simp only [Prod.mk.injEq] at htexts htexts'
  obtain ⟨rfl, hgross, hpayable⟩ := htexts
  obtain ⟨rfl, hpayable'⟩ := htexts'
  exact ⟨_, quote, quote', hquote, hquote', by decide, by decide, hgross, hpayable, hpayable',
    fun h => absurd h.between.1 (by decide)⟩

end Pricing

end ShaponTravels
