import Mathlib.Algebra.BigOperators.Ring.Finset
import ShaponTravels.Library.Grouping
import ShaponTravels.Pricing.RoundTrip
import ShaponTravels.Wallet.Entitlements

/-!
# Allocations — the first entitlements of a booking at its quoted price

The passengers of a booking are quoted by their kinds; `allocate_initial` gives each of them the payable
of its kind back, and what it gives adds up to what was captured.
-/

namespace ShaponTravels.Wallet.TicketManagement

open Library
open Pricing BigDecimal
open Booking (Casing)

/-! ## Bookings and their quotes -/

/-- The kinds of a quote. -/
def kindsOf (quote : Value) : List (String × Value) :=
  Value.entries ((quote.field "passengers").asObject?.getD [])

/-- The type of a passenger, without case. -/
def typeOf (p : Value) : Option String := (p.field "passengerType").asStr?.map toAsciiLowercase

/-- The number of the only ticket. -/
def ticketText (t : Value) : Option String :=
  match (t.field "ticketNumbers").asArray? with
  | some [number] => number.asStr?
  | _ => none

/-- How many passengers a quote has of a type. -/
def seats (quote : Value) (type : String) : Nat :=
  ((kindsOf quote).map fun f =>
    if toAsciiLowercase f.1 = type then (f.2.field "count").asU64?.getD 0 else 0).sum

/-- What a quote, or a kind of it, asks for. -/
def payableOf (v : Value) : Option BigDecimal := displayAmount (v.field "payable")

/-- At most twenty named passengers of the quoted types, with one ticket each, no two with the same
text. -/
structure Booked (quote : Value) (booked tickets : List Value) : Prop where
  few : booked.length ≤ 20
  typed : ∀ p ∈ booked, ∃ type, typeOf p = some type
  named : ∀ p ∈ booked, displayName (p.field "nameElement") ≠ ""
  counts : ∀ type, (booked.countP fun p => typeOf p = some type) = seats quote type
  length : tickets.length = booked.length
  ticketed : ∀ t ∈ tickets, ∃ text, ticketText t = some text
  distinct : (tickets.map ticketText).Nodup

/-- The quote and every kind of it ask for something. -/
structure Positive (quote : Value) : Prop where
  total : ∃ p, payableOf quote = some p ∧ 0 < p.toRat
  kinds : ∀ f ∈ kindsOf quote, ∃ p, payableOf f.2 = some p ∧ 0 < p.toRat

/-- The amount that was captured is the quote's payable. -/
def Captures (quote : Value) (captured : Int) : Prop :=
  ∃ p, payableOf quote = some p ∧ (captured : ℚ) = 100 * p.toRat

/-- What the allocation asks for beyond that. -/
structure Acceptable (cs : Casing) (quote : Value) (tickets : List Value) (captured : Int) : Prop where
  kinds : ((kindsOf quote).map fun f => toAsciiLowercase f.1).Nodup
  numbers : (tickets.map fun t => (ticketText t).map fun s => cs.uppercase (trim s)).Nodup
  usable : ∀ t ∈ tickets, ∀ text, ticketText t = some text →
    cs.uppercase (trim text) ≠ "" ∧ (cs.uppercase (trim text)).utf8ByteSize ≤ 80
  range : captured ≤ maxMinor

/-- An entitlement is worth the payable of its passenger's kind. -/
def PaysKind (quote : Value) (p : Value) (e : InitialEntitlement) : Prop :=
  ∃ f ∈ kindsOf quote, typeOf p = some (toAsciiLowercase f.1) ∧
    ∃ x, payableOf f.2 = some x ∧ (e.amountMinor : ℚ) = 100 * x.toRat

/-! ## One passenger -/

variable {cs : Casing} {fares : List (String × Value)} {result : List InitialEntitlement}
  {quote : Value} {d : Decimals}

theorem singleNumber_of {t : Value} {text : String} (h : ticketText t = some text) :
    singleNumber cs t = .ok (cs.uppercase (trim text)) := by
  unfold ticketText at h
  split at h
  · rename_i number harray
    simp only [singleNumber, harray, fetch_some, ok_bind, h]
    rfl
  · cases h

/-- A letter of a range of the alphabet is one of its code points. -/
theorem mem_range_of_val (low : Nat) {c : Char} (h : low ≤ c.val.toNat ∧ c.val.toNat ≤ low + 25) :
    c.toNat ∈ List.range' low 26 := by
  rw [List.mem_range'_1]
  show low ≤ c.val.toNat ∧ c.val.toNat < low + 26
  omega

theorem toLower_toLower (c : Char) : c.toLower.toLower = c.toLower := by
  by_cases h : c.val ≥ 'A'.val ∧ c.val ≤ 'Z'.val
  · have hmem := mem_range_of_val 65
      ⟨UInt32.le_iff_toNat_le.mp h.1, UInt32.le_iff_toNat_le.mp h.2⟩
    have hall : ∀ n ∈ List.range' 65 26, (Char.ofNat n).toLower.toLower = (Char.ofNat n).toLower := by
      decide
    have hc := hall c.toNat hmem
    rwa [Char.ofNat_toNat] at hc
  · have hsame : c.toLower = c := dif_neg h
    rw [hsame, hsame]

theorem toLower_toUpper (c : Char) : c.toUpper.toLower = c.toLower := by
  by_cases h : 'a'.val ≤ c.val ∧ c.val ≤ 'z'.val
  · have hmem := mem_range_of_val 97
      ⟨UInt32.le_iff_toNat_le.mp h.1, UInt32.le_iff_toNat_le.mp h.2⟩
    have hall : ∀ n ∈ List.range' 97 26, (Char.ofNat n).toUpper.toLower = (Char.ofNat n).toLower := by
      decide
    have hc := hall c.toNat hmem
    rwa [Char.ofNat_toNat] at hc
  · have hsame : c.toUpper = c := dif_neg h
    rw [hsame]

/-- The type of an entitlement reads back without case. -/
theorem lower_upper_lower (s : String) :
    toAsciiLowercase (toAsciiUppercase (toAsciiLowercase s)) = toAsciiLowercase s := by
  unfold toAsciiLowercase toAsciiUppercase
  rw [String.toList_ofList, String.toList_ofList, List.map_map, List.map_map]
  congr 1
  refine List.map_congr_left fun c _ => ?_
  show c.toLower.toUpper.toLower = c.toLower
  rw [toLower_toUpper, toLower_toLower]

/-- What the allocation makes of a passenger and a ticket, when it makes anything of them. -/
def entitlementOf (cs : Casing) (amount : String → Int) (entry : (Value × Value) × Nat) :
    InitialEntitlement :=
  let type := (typeOf entry.1.1).getD ""
  { passengerIndex := entry.2
    passengerName := displayName (entry.1.1.field "nameElement")
    passengerType := toAsciiUppercase type
    ticketNumber := cs.uppercase (trim ((ticketText entry.1.2).getD ""))
    amountMinor := amount type }

/-- A passenger and a ticket that the allocation takes. -/
structure Takes (cs : Casing) (fares : List (String × Value)) (amount : String → Int)
    (entry : (Value × Value) × Nat) : Prop where
  type : ∃ type, typeOf entry.1.1 = some type ∧ kindAmount fares type = .ok (amount type) ∧
    0 < amount type
  name : displayName (entry.1.1.field "nameElement") ≠ ""
  number : ∃ text, ticketText entry.1.2 = some text ∧ cs.uppercase (trim text) ≠ "" ∧
    (cs.uppercase (trim text)).utf8ByteSize ≤ 80

theorem allocate_of {amount : String → Int} {entry : (Value × Value) × Nat}
    (h : Takes cs fares amount entry)
    (hfresh : (entitlementOf cs amount entry).ticketNumber ∉ result.map (·.ticketNumber)) :
    allocate cs fares result entry = .ok (result ++ [entitlementOf cs amount entry]) := by
  obtain ⟨type, htype, hamount, hpos⟩ := h.type
  obtain ⟨text, htext, hblank, hlong⟩ := h.number
  obtain ⟨raw, hraw, rfl⟩ := Option.map_eq_some_iff.mp htype
  have hentitlement : entitlementOf cs amount entry =
      ⟨entry.2, displayName (entry.1.1.field "nameElement"), toAsciiUppercase (toAsciiLowercase raw),
        cs.uppercase (trim text), amount (toAsciiLowercase raw)⟩ := by
    unfold entitlementOf
    rw [htype, htext]
    rfl
  rw [hentitlement] at hfresh ⊢
  simp only [allocate, hraw, fetch_some, ok_bind, hamount, singleNumber_of htext,
    ensure_of hpos, ensure_of (show _ ∧ _ ∧ _ from ⟨hblank, hlong, hfresh⟩), ensure_of h.name]
  rfl

/-- The loop takes every position whose number is new. -/
theorem allocate_fold {amount : String → Int} {entries : List ((Value × Value) × Nat)}
    (h : ∀ entry ∈ entries, Takes cs fares amount entry)
    (hnodup : ((result ++ entries.map (entitlementOf cs amount)).map (·.ticketNumber)).Nodup) :
    entries.foldlM (allocate cs fares) result =
      .ok (result ++ entries.map (entitlementOf cs amount)) := by
  induction entries generalizing result with
  | nil =>
    rw [List.map_nil, List.append_nil]
    rfl
  | cons entry entries ih =>
    have hfresh : (entitlementOf cs amount entry).ticketNumber ∉ result.map (·.ticketNumber) := by
      rw [List.map_cons, List.map_append, List.map_cons, List.nodup_append] at hnodup
      intro hmem
      exact hnodup.2.2 _ hmem _ List.mem_cons_self rfl
    rw [List.map_cons, ← List.singleton_append, ← List.append_assoc] at hnodup
    rw [List.foldlM_cons, allocate_of (h entry List.mem_cons_self) hfresh, ok_bind,
      ih (fun e he => h e (List.mem_cons_of_mem _ he)) hnodup, List.append_assoc,
      List.singleton_append, List.map_cons]

/-! ## The quote of a kind -/

/-- What one passenger of a kind pays. -/
def each (q : KindQuote) : Int := q.gross.minor - q.commission.minor

/-- The type of the passengers of a kind. -/
def kindType (q : KindQuote) : String := toAsciiLowercase q.kind

theorem units_eq (q : KindQuote) : q.units = q.count * each q := by
  unfold KindQuote.units each
  exact Int.mul_comm _ _

theorem toField_count (q : KindQuote) : (q.toField d).2.field "count" = .ofInt q.count := by
  rw [KindQuote.toField, Value.field, Value.get?_object]
  simp

theorem toField_payable (hd : d.Plain) {q : KindQuote} (h : Quoted q) :
    (q.toField d).2.field "payable" = .str (twoPlaces (each q)) := by
  rw [KindQuote.toField, Value.field, Value.get?_object, hd.fixed _ _ h.payable]
  simp [each]

/-- A count reads back as an integer of 64 bits. -/
theorem asI64?_ofInt {n : Nat} (h : (n : Int) ≤ bigintMax) : asI64? (.ofInt n) = some (n : Int) := by
  have htext : (toString (n : Int)).toList = Nat.toDigits 10 n := by
    show (Nat.repr n).toList = _
    rw [Nat.repr, String.toList_ofList]
  show (BigDecimal.parseInteger (toString (n : Int)).toList).bind i64? = _
  rw [htext, parseInteger_digits Nat.toDigits_ne_nil fun c hc => isAsciiDigit_toDigits hc,
    Nat.ofDigitChars_ten_toDigits, Option.bind_some, i64?_eq_some]
  refine ⟨⟨?_, h⟩, rfl⟩
  have hpos := Int.natCast_nonneg n
  unfold bigintMax
  omega

variable {gross : Value} {currency : String} {quotes : List KindQuote}

/-- The kinds of a snapshot are its quotes, in some order. -/
theorem kindsOf_perm (hs : Snapshot d quote gross currency quotes) :
    ∃ sorted, quote.field "passengers" = .obj sorted ∧ Value.entries sorted = sorted ∧
      kindsOf quote = sorted ∧ sorted.Perm (quotes.map (KindQuote.toField d)) := by
  have hkeys : ((quotes.map (KindQuote.toField d)).map Prod.fst).Nodup := by
    rw [List.map_map]
    exact hs.nodup
  obtain ⟨sorted, hsorted, hperm⟩ := Value.object_perm hkeys
  have hentries : Value.entries sorted = sorted :=
    Value.entries_of_nodup ((hperm.map Prod.fst).nodup_iff.mpr hkeys)
  have hfield := hs.passengers.trans hsorted
  refine ⟨sorted, hfield, hentries, ?_, hperm⟩
  unfold kindsOf
  rw [hfield]
  exact hentries

theorem mem_kindsOf (hs : Snapshot d quote gross currency quotes) {f : String × Value} :
    f ∈ kindsOf quote ↔ ∃ q ∈ quotes, q.toField d = f := by
  obtain ⟨sorted, -, -, hkinds, hperm⟩ := kindsOf_perm hs
  rw [hkinds, hperm.mem_iff, List.mem_map]

theorem seats_quotes (hs : Snapshot d quote gross currency quotes) (type : String) :
    seats quote type = (quotes.map fun q => if kindType q = type then q.count else 0).sum := by
  obtain ⟨sorted, -, -, hkinds, hperm⟩ := kindsOf_perm hs
  unfold seats
  rw [hkinds, (hperm.map _).sum_eq, List.map_map]
  congr 1
  refine List.map_congr_left fun q hq => ?_
  show (if kindType q = type then ((q.toField d).2.field "count").asU64?.getD 0 else 0) = _
  rw [toField_count, Value.asU64?_ofInt (hs.quoted q hq).countLt]
  rfl

/-- A type names one kind at most, whose payable the allocation reads. -/
theorem kindAmount_quote (hd : d.Plain) (hs : Snapshot d quote gross currency quotes)
    (hkinds : KeyUnique kindType quotes) {q : KindQuote} (hq : q ∈ quotes) (hmax : each q ≤ maxMinor) :
    ∃ sorted, quote.field "passengers" = .obj sorted ∧ kindAmount sorted (kindType q) = .ok (each q) := by
  obtain ⟨sorted, hfield, hentries, -, hperm⟩ := kindsOf_perm hs
  refine ⟨sorted, hfield, ?_⟩
  have hunique : KeyUnique (fun f : String × Value => toAsciiLowercase f.1) sorted := by
    refine (hperm.map _).nodup_iff.mpr ?_
    rw [List.map_map]
    exact hkinds
  have hmem : q.toField d ∈ sorted := hperm.mem_iff.mpr (List.mem_map_of_mem hq)
  have hfilter : sorted.filter (fun f => toAsciiLowercase f.1 = kindType q) = [q.toField d] :=
    hunique.filter_eq hmem (decide_eq_true rfl) fun f _ hf => of_decide_eq_true hf
  have hquoted := hs.quoted q hq
  have hminor : Wallet.majorToMinor (twoPlaces (each q)) = .ok (each q) := by
    refine Wallet.majorToMinor_twoPlaces hquoted.payableNonneg ?_
    unfold maxMinor at hmax
    unfold bigintMax
    omega
  unfold kindAmount
  rw [hentries, hfilter]
  simp only [toField_payable hd hquoted, Value.asStr?, fetch_some, ok_bind, hminor]
  exact minor_eq_ok.mpr ⟨⟨hquoted.payableNonneg, hmax⟩, rfl⟩

/-! ## The whole booking -/

variable {booked tickets : List Value} {captured : Int}

/-- What a passenger of a type pays. -/
def amountOf (quotes : List KindQuote) (type : String) : Int :=
  (quotes.map fun q => if kindType q = type then each q else 0).sum

theorem amountOf_kindType (hkinds : KeyUnique kindType quotes) {q : KindQuote} (hq : q ∈ quotes) :
    amountOf quotes (kindType q) = each q :=
  hkinds.sum_key hq each

/-- A kind has as many passengers in the booking as in the quote. -/
theorem countP_kindType (hs : Snapshot d quote gross currency quotes) (hb : Booked quote booked tickets)
    (hkinds : KeyUnique kindType quotes) {q : KindQuote} (hq : q ∈ quotes) :
    booked.countP (fun p => typeOf p = some (kindType q)) = q.count := by
  rw [hb.counts, seats_quotes hs]
  have hsum := hkinds.sum_key hq fun q => (q.count : Int)
  have hcast : (((quotes.map fun q' => if kindType q' = kindType q then q'.count else 0).sum : Nat) : Int) =
      (quotes.map fun q' => if kindType q' = kindType q then (q'.count : Int) else 0).sum := by
    rw [Nat.cast_list_sum, List.map_map]
    congr 1
    refine List.map_congr_left fun q' _ => ?_
    show ((if kindType q' = kindType q then q'.count else 0 : Nat) : Int) = _
    split <;> rfl
  rw [← hcast] at hsum
  exact_mod_cast hsum

/-- The type of a passenger names a kind of the quote. -/
theorem exists_kind (hs : Snapshot d quote gross currency quotes) (hb : Booked quote booked tickets)
    {p : Value} (hp : p ∈ booked) : ∃ q ∈ quotes, typeOf p = some (kindType q) := by
  obtain ⟨type, htype⟩ := hb.typed p hp
  have hpos : 0 < booked.countP fun p => typeOf p = some type :=
    List.countP_pos_iff.mpr ⟨p, hp, decide_eq_true htype⟩
  rw [hb.counts, seats_quotes hs] at hpos
  by_contra hnone
  have hzero : ∀ n ∈ quotes.map (fun q => if kindType q = type then q.count else 0), n = 0 := by
    intro n hn
    obtain ⟨q, hq, rfl⟩ := List.mem_map.mp hn
    exact if_neg fun h : kindType q = type => hnone ⟨q, hq, by rw [h]; exact htype⟩
  rw [List.sum_eq_zero hzero] at hpos
  exact Nat.lt_irrefl 0 hpos

/-- The passengers pay what their kinds do. -/
theorem sum_amountOf (hs : Snapshot d quote gross currency quotes) (hb : Booked quote booked tickets)
    (hkinds : KeyUnique kindType quotes) :
    (booked.map fun p => amountOf quotes ((typeOf p).getD "")).sum =
      (quotes.map KindQuote.units).sum := by
  have hgroups := sum_by_key (fun p => (typeOf p).getD "") kindType each booked quotes
  unfold amountOf
  rw [hgroups]
  congr 1
  refine List.map_congr_left fun q hq => ?_
  have hcount : booked.countP (fun p => kindType q = (typeOf p).getD "") = q.count := by
    rw [← countP_kindType hs hb hkinds hq]
    refine List.countP_congr fun p hp => ?_
    obtain ⟨type, htype⟩ := hb.typed p hp
    rw [htype, decide_eq_true_eq, decide_eq_true_eq]
    show kindType q = type ↔ some type = some (kindType q)
    rw [Option.some.injEq]
    exact eq_comm
  rw [hcount, units_eq]

/-- The entries of the loop, read at their passengers. -/
theorem map_passengers {α : Type} (f : Value → α) (hlength : tickets.length = booked.length) :
    ((booked.zip tickets).zipIdx.map fun entry => f entry.1.1) = booked.map f := by
  have hfst : ((booked.zip tickets).zipIdx.map Prod.fst).map Prod.fst = booked := by
    rw [List.zipIdx_map_fst, List.map_fst_zip (by omega)]
  conv_rhs => rw [← hfst]
  rw [List.map_map, List.map_map]
  rfl

/-- And at their tickets. -/
theorem map_tickets {α : Type} (f : Value → α) (hlength : tickets.length = booked.length) :
    ((booked.zip tickets).zipIdx.map fun entry => f entry.1.2) = tickets.map f := by
  have hsnd : ((booked.zip tickets).zipIdx.map Prod.fst).map Prod.snd = tickets := by
    rw [List.zipIdx_map_fst, List.map_snd_zip (by omega)]
  conv_rhs => rw [← hsnd]
  rw [List.map_map, List.map_map]
  rfl

theorem numbers_nodup (hb : Booked quote booked tickets) (ha : Acceptable cs quote tickets captured) :
    (tickets.map fun t => cs.uppercase (trim ((ticketText t).getD ""))).Nodup := by
  have hsame : (tickets.map fun t => (ticketText t).map fun s => cs.uppercase (trim s)) =
      (tickets.map fun t => cs.uppercase (trim ((ticketText t).getD ""))).map some := by
    rw [List.map_map]
    refine List.map_congr_left fun t ht => ?_
    obtain ⟨text, htext⟩ := hb.ticketed t ht
    show (ticketText t).map _ = some (cs.uppercase (trim ((ticketText t).getD "")))
    rw [htext]
    rfl
  have hnumbers := ha.numbers
  rw [hsame] at hnumbers
  exact List.Nodup.of_map _ hnumbers

/-! ## Completeness -/

/-- The payable of a quote for something is the sum of its kinds. -/
theorem quote_captured (hd : d.Plain) (hs : Snapshot d quote gross currency quotes)
    (hp : Positive quote) (hc : Captures quote captured) :
    0 < captured ∧ captured = (quotes.map KindQuote.units).sum ∧
      quote.field "payable" = .str (twoPlaces captured) := by
  obtain ⟨payable, hpayable, hpos⟩ := hp.total
  obtain ⟨payable', hpayable', hcaptured⟩ := hc
  obtain rfl : payable = payable' := Option.some.inj (hpayable.symm.trans hpayable')
  unfold payableOf at hpayable
  have hscaled : (0 : ℚ) < captured := by
    rw [hcaptured]
    positivity
  obtain ⟨g, c, _, -, -, htext, -, -, -, -, hsum⟩ := snapshot_texts hd hs
  rw [htext, displayAmount_str, Option.some.injEq] at hpayable
  have hunits : captured = g - c := by
    rw [← hpayable, hundred_toRat] at hcaptured
    exact_mod_cast hcaptured
  refine ⟨by exact_mod_cast hscaled, hunits.trans hsum, ?_⟩
  rw [htext, hunits]

theorem each_pos (hd : d.Plain) (hs : Snapshot d quote gross currency quotes) (hp : Positive quote)
    {q : KindQuote} (hq : q ∈ quotes) : 0 < each q := by
  obtain ⟨payable, hpayable, hpos⟩ := hp.kinds _ ((mem_kindsOf hs).mpr ⟨q, hq, rfl⟩)
  unfold payableOf at hpayable
  rw [toField_payable hd (hs.quoted q hq), displayAmount_str, Option.some.injEq] at hpayable
  rw [← hpayable] at hpos
  have hscaled : (0 : ℚ) < 100 * toRat ⟨each q, 2⟩ := by positivity
  rw [hundred_toRat] at hscaled
  exact_mod_cast hscaled

/-- One passenger pays no more than all of them. -/
theorem each_le (hs : Snapshot d quote gross currency quotes) {q : KindQuote} (hq : q ∈ quotes) :
    each q ≤ (quotes.map KindQuote.units).sum := by
  have hnonneg : ∀ q ∈ quotes, 0 ≤ q.units := by
    intro q hq
    rw [units_eq]
    exact Int.mul_nonneg (Int.natCast_nonneg _) (hs.quoted q hq).payableNonneg
  have hsingle : q.units ≤ (quotes.map KindQuote.units).sum := by
    refine List.single_le_sum ?_ _ (List.mem_map_of_mem hq)
    intro n hn
    obtain ⟨q', hq', rfl⟩ := List.mem_map.mp hn
    exact hnonneg q' hq'
  refine le_trans ?_ hsingle
  have hcount : (1 : Int) ≤ q.count := by exact_mod_cast (hs.quoted q hq).countPos
  have hmul := Int.mul_le_mul_of_nonneg_right hcount (hs.quoted q hq).payableNonneg
  rw [units_eq]
  rw [Int.one_mul] at hmul
  exact hmul

theorem keyUnique_kindType (hs : Snapshot d quote gross currency quotes)
    (ha : Acceptable cs quote tickets captured) : KeyUnique kindType quotes := by
  obtain ⟨sorted, -, -, hkinds, hperm⟩ := kindsOf_perm hs
  have hnodup := ha.kinds
  rw [hkinds, (hperm.map _).nodup_iff, List.map_map] at hnodup
  exact hnodup

/-- Every passenger of a booked quote is taken, with a ticket that can be. -/
theorem takes_quote (hd : d.Plain) (hs : Snapshot d quote gross currency quotes)
    (hb : Booked quote booked tickets) (hp : Positive quote)
    (ha : Acceptable cs quote tickets captured)
    (hcaptured : captured = (quotes.map KindQuote.units).sum)
    (hfares : quote.field "passengers" = .obj fares) {entry : (Value × Value) × Nat}
    (hentry : entry ∈ (booked.zip tickets).zipIdx) :
    Takes cs fares (amountOf quotes) entry := by
  have hkinds := keyUnique_kindType hs ha
  have hpair : (entry.1.1, entry.1.2) ∈ booked.zip tickets := List.fst_mem_of_mem_zipIdx hentry
  obtain ⟨hbooked, hticket⟩ := List.of_mem_zip hpair
  obtain ⟨q, hq, htype⟩ := exists_kind hs hb hbooked
  obtain ⟨text, htext⟩ := hb.ticketed _ hticket
  have hmax : each q ≤ maxMinor := by
    have hle := each_le hs hq
    rw [← hcaptured] at hle
    exact le_trans hle ha.range
  obtain ⟨sorted, hsorted, hamount⟩ := kindAmount_quote hd hs hkinds hq hmax
  obtain rfl : sorted = fares := Value.obj.inj (hsorted.symm.trans hfares)
  refine ⟨⟨kindType q, htype, ?_, ?_⟩, hb.named _ hbooked, text, htext, ha.usable _ hticket _ htext⟩
  · rw [amountOf_kindType hkinds hq]
    exact hamount
  · rw [amountOf_kindType hkinds hq]
    exact each_pos hd hs hp hq

/-- The types of the entitlements, without case, are those of the passengers. -/
theorem map_types {amount : String → Int} (hlength : tickets.length = booked.length)
    (htyped : ∀ p ∈ booked, ∃ type, typeOf p = some type) :
    (((booked.zip tickets).zipIdx.map (entitlementOf cs amount)).map fun e =>
      toAsciiLowercase e.passengerType) = booked.map fun p => (typeOf p).getD "" := by
  rw [← map_passengers (fun p => (typeOf p).getD "") hlength, List.map_map]
  refine List.map_congr_left fun entry hentry => ?_
  have hpair : (entry.1.1, entry.1.2) ∈ booked.zip tickets := List.fst_mem_of_mem_zipIdx hentry
  obtain ⟨type, htype⟩ := htyped _ (List.of_mem_zip hpair).1
  obtain ⟨raw, -, rfl⟩ := Option.map_eq_some_iff.mp htype
  show toAsciiLowercase (toAsciiUppercase ((typeOf entry.1.1).getD "")) = (typeOf entry.1.1).getD ""
  rw [htype]
  exact lower_upper_lower raw

theorem countP_entitlements {amount : String → Int} (hlength : tickets.length = booked.length)
    (htyped : ∀ p ∈ booked, ∃ type, typeOf p = some type) (kind : String) :
    (((booked.zip tickets).zipIdx.map (entitlementOf cs amount)).countP fun e =>
      toAsciiLowercase e.passengerType = kind) =
    booked.countP fun p => typeOf p = some kind := by
  have hpassengers : (booked.map fun p => (typeOf p).getD "").countP (fun s => s = kind) =
      booked.countP fun p => typeOf p = some kind := by
    rw [List.countP_map]
    refine List.countP_congr fun p hp => ?_
    obtain ⟨type, htype⟩ := htyped p hp
    simp only [Function.comp_apply, htype, decide_eq_true_eq, Option.some.injEq, Option.getD_some]
  rw [← hpassengers, ← @map_types cs _ _ amount hlength htyped]
  simp only [List.countP_map, Function.comp_def]

/-- A booked quote is allocated: to each passenger the payable of its kind. -/
theorem allocateInitial_quote (hd : d.Plain) (hs : Snapshot d quote gross currency quotes)
    (hb : Booked quote booked tickets) (hp : Positive quote) (hc : Captures quote captured)
    (ha : Acceptable cs quote tickets captured) :
    allocateInitial cs (.arr booked) (.arr tickets) quote captured =
      .ok ((booked.zip tickets).zipIdx.map (entitlementOf cs (amountOf quotes))) := by
  have hkinds := keyUnique_kindType hs ha
  obtain ⟨hpos, hcaptured, htext⟩ := quote_captured hd hs hp hc
  obtain ⟨sorted, hfares, hentries, -, hperm⟩ := kindsOf_perm hs
  have hfew : (booked ≠ [] ∧ booked.length ≤ 20 ∧ booked.length = tickets.length) := by
    refine ⟨?_, hb.few, hb.length.symm⟩
    rintro rfl
    have hsum := sum_amountOf hs hb hkinds
    rw [List.map_nil, List.sum_nil, ← hcaptured] at hsum
    omega
  have hmajor : Wallet.majorToMinor (twoPlaces captured) = .ok captured := by
    refine Wallet.majorToMinor_twoPlaces hpos.le ?_
    have hrange := ha.range
    unfold maxMinor at hrange
    unfold bigintMax
    omega
  -- the loop takes one passenger after the other, and its checks are settled here in their order
  have htaken : (booked.zip tickets).zipIdx.foldlM (allocate cs sorted) [] =
      .ok ((booked.zip tickets).zipIdx.map (entitlementOf cs (amountOf quotes))) := by
    refine allocate_fold (fun entry hentry => takes_quote hd hs hb hp ha hcaptured hfares hentry) ?_
    rw [List.nil_append, List.map_map]
    have hnumbers := map_tickets (fun t => cs.uppercase (trim ((ticketText t).getD ""))) hb.length
    refine hnumbers ▸ numbers_nodup hb ha
  have hcounted : (Value.entries sorted).all fun f => asI64? (f.2.field "count") =
      some (((booked.zip tickets).zipIdx.map (entitlementOf cs (amountOf quotes))).countP fun e =>
        toAsciiLowercase e.passengerType = toAsciiLowercase f.1) := by
    rw [hentries, List.all_eq_true]
    intro f hf
    obtain ⟨q, hq, rfl⟩ := List.mem_map.mp (hperm.mem_iff.mp hf)
    have hcount := countP_kindType hs hb hkinds hq
    have hle : q.count ≤ 20 := by
      rw [← hcount]
      exact le_trans List.countP_le_length hb.few
    rw [decide_eq_true_eq, countP_entitlements hb.length hb.typed, toField_count]
    show _ = some ((booked.countP fun p => typeOf p = some (kindType q) : Nat) : Int)
    rw [hcount]
    refine asI64?_ofInt ?_
    unfold bigintMax
    omega
  have hsum : sum (((booked.zip tickets).zipIdx.map (entitlementOf cs (amountOf quotes))).map
      (·.amountMinor)) = .ok captured := by
    have hamounts := map_passengers (fun p => amountOf quotes ((typeOf p).getD "")) hb.length
    have hmapped : ((booked.zip tickets).zipIdx.map (entitlementOf cs (amountOf quotes))).map
        (·.amountMinor) = booked.map fun p => amountOf quotes ((typeOf p).getD "") := by
      rw [List.map_map, ← hamounts]
      rfl
    rw [hmapped]
    refine sum_eq_ok.mpr ⟨?_, ?_, ?_⟩
    · intro n hn
      obtain ⟨p, hpassenger, rfl⟩ := List.mem_map.mp hn
      obtain ⟨q, hq, htype⟩ := exists_kind hs hb hpassenger
      rw [htype, Option.getD_some, amountOf_kindType hkinds hq]
      exact (each_pos hd hs hp hq).le
    · rw [sum_amountOf hs hb hkinds, ← hcaptured]
      exact ha.range
    · rw [sum_amountOf hs hb hkinds]
      exact hcaptured
  simp only [allocateInitial, Value.asArray?, fetch_some, ok_bind, hfares, Value.asObject?, htext,
    Value.asStr?, ensure_of (show 0 < captured ∧ _ from ⟨hpos, hfew⟩), hmajor, ensure_of trivial,
    htaken, ensure_of hcounted, hsum]
  rfl

/-! ## Any allocation -/

/-- An entitlement is made of its passenger. -/
def MadeOf (entry : (Value × Value) × Nat) (e : InitialEntitlement) : Prop :=
  e.passengerIndex = entry.2 ∧ e.passengerName = displayName (entry.1.1.field "nameElement") ∧
    some e.passengerType = (typeOf entry.1.1).map toAsciiUppercase

theorem allocate_madeOf {entry : (Value × Value) × Nat} {result' : List InitialEntitlement}
    (h : allocate cs fares result entry = .ok result') :
    ∃ e, result' = result ++ [e] ∧ MadeOf entry e := by
  simp only [allocate, bind_eq_ok, fetch_eq_ok, ensure_eq_ok, exists_const, pure_eq_ok] at h
  obtain ⟨type, htype, amount, -, -, number, -, -, -, rfl⟩ := h
  refine ⟨_, rfl, rfl, rfl, ?_⟩
  rw [typeOf, htype]
  rfl

/-- What an allocation says of the passengers it was made for, and of the captured amount. -/
structure Conserves (passengers : Value) (captured : Int) (result : List InitialEntitlement) :
    Prop where
  total : (result.map (·.amountMinor)).sum = captured
  order : ∃ booked, passengers = .arr booked ∧
    result.map (·.passengerIndex) = List.range booked.length ∧
    (result.map (·.passengerName) = booked.map fun p => displayName (p.field "nameElement")) ∧
    (result.map fun e => some e.passengerType) = booked.map fun p => (typeOf p).map toAsciiUppercase
  distinct : (result.map (·.ticketNumber)).Nodup

theorem map_of_forall₂ {α β γ : Type} {R : α → β → Prop} {f : α → γ} {g : β → γ} {as : List α}
    {bs : List β} (h : List.Forall₂ R as bs) (hR : ∀ a b, R a b → g b = f a) :
    bs.map g = as.map f := by
  induction h with
  | nil => rfl
  | cons hab _ ih => rw [List.map_cons, List.map_cons, ih, hR _ _ hab]

theorem allocateInitial_conserves {passengers tickets pricing : Value}
    (h : allocateInitial cs passengers tickets pricing captured = .ok result) :
    Conserves passengers captured result := by
  obtain ⟨_, _, _, -, -, -, hallocated⟩ := allocateInitial_ok h
  simp only [allocateInitial, bind_eq_ok, fetch_eq_ok, ensure_eq_ok, exists_const, pure_eq_ok,
    Value.asArray?_eq_some, Value.asObject?_eq_some] at h
  obtain ⟨booked, rfl, ts, rfl, fares, -, hguard, _, -, _, -, -, found, hfound, -, total, htotal,
    heq, rfl⟩ := h
  obtain ⟨added, hadded, hmade⟩ := foldlM_appends (fun _ _ _ h => allocate_madeOf h) hfound
  rw [List.nil_append] at hadded
  subst hadded
  have hlength : ts.length = booked.length := hguard.2.2.2.symm
  obtain ⟨-, -, hsum⟩ := sum_eq_ok.mp htotal
  refine ⟨hsum.symm.trans heq, ⟨booked, rfl, ?_, ?_, ?_⟩, hallocated.nodup⟩
  · rw [map_of_forall₂ (f := Prod.snd) hmade fun _ _ h => h.1, List.zipIdx_map_snd, List.length_zip,
      hlength, Nat.min_self, List.range_eq_range']
  · rw [map_of_forall₂ hmade fun _ _ h => h.2.1]
    exact map_passengers (fun p => displayName (p.field "nameElement")) hlength
  · rw [map_of_forall₂ hmade fun _ _ h => h.2.2]
    exact map_passengers (fun p => (typeOf p).map toAsciiUppercase) hlength

/-! ## What is allocated of a snapshot -/

/-- Each passenger of a booked quote gets the payable of its kind. -/
theorem entitlements_pay (hd : d.Plain) (hs : Snapshot d quote gross currency quotes)
    (hb : Booked quote booked tickets) (hkinds : KeyUnique kindType quotes) :
    List.Forall₂ (PaysKind quote) booked
      ((booked.zip tickets).zipIdx.map (entitlementOf cs (amountOf quotes))) := by
  have hsame := map_passengers (fun p => p) hb.length
  rw [List.map_id'] at hsame
  have hpays : List.Forall₂ (PaysKind quote) ((booked.zip tickets).zipIdx.map fun entry => entry.1.1)
      ((booked.zip tickets).zipIdx.map (entitlementOf cs (amountOf quotes))) := by
    rw [List.forall₂_map_left_iff, List.forall₂_map_right_iff, List.forall₂_same]
    intro entry hentry
    have hpair : (entry.1.1, entry.1.2) ∈ booked.zip tickets := List.fst_mem_of_mem_zipIdx hentry
    obtain ⟨q, hq, htype⟩ := exists_kind hs hb (List.of_mem_zip hpair).1
    refine ⟨q.toField d, (mem_kindsOf hs).mpr ⟨q, hq, rfl⟩, htype, ⟨each q, 2⟩, ?_, ?_⟩
    · rw [payableOf, toField_payable hd (hs.quoted q hq), displayAmount_str]
    · rw [hundred_toRat]
      show ((amountOf quotes ((typeOf entry.1.1).getD "") : Int) : ℚ) = _
      rw [htype, Option.getD_some, amountOf_kindType hkinds hq]
  rwa [hsame] at hpays

/-! ## Samples -/

/-- The kinds of a quote as they are compared: their names, counts and payables. -/
def kindRows (quote : Value) : List (String × Nat × Option BigDecimal) :=
  (kindsOf quote).map fun f => (f.1, (f.2.field "count").asU64?.getD 0, payableOf f.2)

theorem seats_rows (type : String) : seats quote type =
    ((kindRows quote).map fun row => if toAsciiLowercase row.1 = type then row.2.1 else 0).sum := by
  rw [kindRows, List.map_map]
  rfl

theorem positive_rows {payable : BigDecimal} (hpayable : payableOf quote = some payable)
    (hpos : 0 < payable.toRat)
    (h : ∀ row ∈ kindRows quote, ∃ p, row.2.2 = some p ∧ 0 < p.toRat) : Positive quote := by
  refine ⟨⟨payable, hpayable, hpos⟩, fun f hf => ?_⟩
  exact h _ (List.mem_map_of_mem (f := fun f : String × Value =>
    (f.1, (f.2.field "count").asU64?.getD 0, payableOf f.2)) hf)

/-- A fare for kinds of passengers who pay the same. -/
def sampleKinds (counts : List (String × Nat)) (supplier : Nat) : Value :=
  let fare (n : Nat) := Value.object [("totalPrice", .ofInt (n * supplier : Nat)),
    ("basePrice", .ofInt (n * supplier : Nat)), ("taxes", .ofInt 0), ("ait", .ofInt 0)]
  let passengers := (counts.map Prod.snd).sum
  .object [("totalPrice", .ofInt (passengers * supplier : Nat)),
    ("bookingComponents", .arr [fare passengers]),
    ("passengerCounts", .object (counts.map fun k => (k.1, .ofInt k.2))),
    ("passengerFares", .object (counts.map fun k => (k.1, fare 1)))]

def sampleKindsQuote (counts : List (String × Nat)) (supplier : Nat) :
    Except ApiError (Value × Value) := do
  let fare := sampleKinds counts supplier
  let gross ← (projected sampleDecimals fare (some .basic) (.fixed (ofInt 0))).mapError
    fun _ => invalidTier
  let quote ← snapshot sampleDecimals fare gross (some .basic) 0 "BDT" (.fixed (ofInt 0))
  return (gross, quote)

theorem sampleKindsQuote_ok {counts : List (String × Nat)} {supplier : Nat}
    (h : sampleKindsQuote counts supplier = .ok (gross, quote)) :
    projected sampleDecimals (sampleKinds counts supplier) (some .basic) (.fixed (ofInt 0)) =
        .ok gross ∧
      snapshot sampleDecimals (sampleKinds counts supplier) gross (some .basic) 0 "BDT"
        (.fixed (ofInt 0)) = .ok quote := by
  simp only [sampleKindsQuote, bind_eq_ok, mapError_eq_ok, pure_eq_ok, Prod.mk.injEq] at h
  obtain ⟨_, hgross, _, hquote, rfl, rfl⟩ := h
  exact ⟨hgross, hquote⟩

def sampleBooked (types : List String) : List Value :=
  types.map fun type => .object [("passengerType", .str type),
    ("nameElement", .object [("firstName", .str "Ada")])]

def sampleTickets (numbers : List String) : List Value :=
  numbers.map fun number => .object [("ticketNumbers", .arr [.str number])]

theorem sampleBooked_booked {types numbers : List String}
    (hfew : types.length ≤ 20) (hlength : numbers.length = types.length) (hnodup : numbers.Nodup)
    (hcounts : ∀ type, types.countP (fun t => toAsciiLowercase t = type) =
      ((kindRows quote).map fun row => if toAsciiLowercase row.1 = type then row.2.1 else 0).sum) :
    Booked quote (sampleBooked types) (sampleTickets numbers) := by
  have htype : ∀ t, typeOf (.object [("passengerType", .str t),
      ("nameElement", .object [("firstName", .str "Ada")])]) = some (toAsciiLowercase t) := by
    intro t
    rw [typeOf, Value.field, Value.get?_object]
    simp [Value.asStr?]
  have hticket : ∀ n, ticketText (.object [("ticketNumbers", .arr [.str n])]) = some n := fun _ => rfl
  constructor
  case few => rw [sampleBooked, List.length_map]; exact hfew
  case typed =>
    intro p hp
    obtain ⟨t, -, rfl⟩ := List.mem_map.mp hp
    exact ⟨_, htype t⟩
  case named =>
    intro p hp
    obtain ⟨t, -, rfl⟩ := List.mem_map.mp hp
    rw [Value.field, Value.get?_object]
    simp
    decide
  case counts =>
    intro type
    rw [seats_rows, ← hcounts, sampleBooked, List.countP_map]
    refine List.countP_congr fun t _ => ?_
    rw [Function.comp_apply, htype, decide_eq_true_eq, decide_eq_true_eq, Option.some.injEq]
  case length => rw [sampleTickets, sampleBooked, List.length_map, List.length_map, hlength]
  case ticketed =>
    intro t ht
    obtain ⟨n, -, rfl⟩ := List.mem_map.mp ht
    exact ⟨_, hticket n⟩
  case distinct =>
    rw [sampleTickets, List.map_map]
    exact hnodup.map fun a b h => Option.some.inj (by rw [← hticket a, ← hticket b]; exact h)

/-- What a booking pays for its kinds goes back to its passengers, and no allocation gives more or
less than was captured. -/
theorem allocateInitial_exact :
    (∀ {d : Decimals} {cs : Casing} {original gross quote : Value} {tier : Option Tier} {share : Int}
      {currency : String} {markup : Markup} {booked tickets : List Value} {captured : Int},
      d.Plain → projected d original tier markup = .ok gross →
      snapshot d original gross tier share currency markup = .ok quote →
      Booked quote booked tickets → Positive quote → Captures quote captured →
      Acceptable cs quote tickets captured →
      ∃ result, allocateInitial cs (.arr booked) (.arr tickets) quote captured = .ok result ∧
        List.Forall₂ (PaysKind quote) booked result ∧
        (result.map (·.amountMinor)).sum = captured) ∧
    ∀ {cs : Casing} {passengers tickets pricing : Value} {captured : Int}
      {result : List InitialEntitlement},
      allocateInitial cs passengers tickets pricing captured = .ok result →
      Conserves passengers captured result := by
  refine ⟨?_, fun h => allocateInitial_conserves h⟩
  intro d cs original gross quote tier share currency markup booked tickets captured hd hgross hquote
    hb hp hc ha
  obtain ⟨quotes, hs⟩ := snapshot_ok hd (projected_readable hgross) hquote
  have hallocated := allocateInitial_quote hd hs hb hp hc ha
  exact ⟨_, hallocated, entitlements_pay hd hs hb (keyUnique_kindType hs ha),
    (allocateInitial_conserves hallocated).total⟩

/-- Two adults and a child, at the price of their kinds. -/
theorem allocateInitial_exact_family : ∃ quote result,
    allocateInitial plainCasing (.arr (sampleBooked ["ADT", "adt", "CHD"]))
      (.arr (sampleTickets ["176-1", "176-2", " 176-3"])) quote 30000 = .ok result ∧
    List.Forall₂ (PaysKind quote) (sampleBooked ["ADT", "adt", "CHD"]) result ∧
    (result.map (·.amountMinor)).sum = 30000 ∧
    Conserves (.arr (sampleBooked ["ADT", "adt", "CHD"])) 30000 result := by
  have hsample : (sampleKindsQuote [("adt", 2), ("chd", 1)] 100).map (fun x =>
      (kindRows x.2, payableOf x.2)) =
      .ok ([("adt", 2, some ⟨10000, 2⟩), ("chd", 1, some ⟨10000, 2⟩)], some ⟨30000, 2⟩) := by
    decide +kernel
  obtain ⟨⟨gross, quote⟩, hquote, hread⟩ := map_eq_ok.mp hsample
  obtain ⟨hrows, hpayable⟩ := Prod.mk.inj hread
  obtain ⟨hprojected, hsnapshot⟩ := sampleKindsQuote_ok hquote
  have hbooked : Booked quote (sampleBooked ["ADT", "adt", "CHD"])
      (sampleTickets ["176-1", "176-2", " 176-3"]) := by
    refine sampleBooked_booked (by decide) rfl (by decide) fun type => ?_
    rw [hrows]
    by_cases hadult : type = "adt"
    · subst hadult
      decide
    · have hlower : toAsciiLowercase "ADT" = "adt" ∧ toAsciiLowercase "adt" = "adt" ∧
          toAsciiLowercase "CHD" = "chd" ∧ toAsciiLowercase "chd" = "chd" := by decide
      simp [hlower, Ne.symm hadult, List.countP_cons]
  have hpositive : Positive quote := by
    refine positive_rows hpayable (by rw [toRat_minor]; norm_num) ?_
    rw [hrows]
    simp [toRat_minor]
  have hacceptable : Acceptable plainCasing quote (sampleTickets ["176-1", "176-2", " 176-3"])
      30000 := by
    refine ⟨?_, by decide, ?_, by decide⟩
    · have hnames : (kindsOf quote).map (fun f => toAsciiLowercase f.1) =
          (kindRows quote).map fun row => toAsciiLowercase row.1 := by
        rw [kindRows, List.map_map]
        rfl
      rw [hnames, hrows]
      decide
    · decide
  obtain ⟨result, hresult, hpays, htotal⟩ := allocateInitial_exact.1 sampleDecimals_plain hprojected
    hsnapshot hbooked hpositive ⟨_, hpayable, (hundred_toRat 30000).symm⟩ hacceptable
  exact ⟨quote, result, hresult, hpays, htotal, allocateInitial_exact.2 hresult⟩

/-- Passengers of one type count as the kinds that are that type. -/
theorem counts_single {types : List String} {rows : List (String × Nat × Option BigDecimal)}
    {kind : String} (htypes : ∀ t ∈ types, toAsciiLowercase t = kind)
    (hrows : ∀ row ∈ rows, toAsciiLowercase row.1 = kind)
    (htotal : types.length = (rows.map (·.2.1)).sum) (type : String) :
    types.countP (fun t => toAsciiLowercase t = type) =
      (rows.map fun row => if toAsciiLowercase row.1 = type then row.2.1 else 0).sum := by
  by_cases h : kind = type
  · have hall : types.countP (fun t => toAsciiLowercase t = type) = types.length :=
      List.countP_eq_length.mpr fun t ht => decide_eq_true ((htypes t ht).trans h)
    rw [hall, htotal]
    congr 1
    exact List.map_congr_left fun row hrow => (if_pos ((hrows row hrow).trans h)).symm
  · have hnone : types.countP (fun t => toAsciiLowercase t = type) = 0 :=
      List.countP_eq_zero.mpr fun t ht heq => h ((htypes t ht).symm.trans (of_decide_eq_true heq))
    rw [hnone, eq_comm]
    refine List.sum_eq_zero fun n hn => ?_
    obtain ⟨row, hrow, rfl⟩ := List.mem_map.mp hn
    exact if_neg fun heq => h ((hrows row hrow).symm.trans heq)

/-- A snapshot whose passengers are booked at its payable, and refused. -/
def Refused (original : Value) (booked tickets : List Value) (captured : Int) : Prop :=
  ∃ gross quote, projected sampleDecimals original (some .basic) (.fixed (ofInt 0)) = .ok gross ∧
    snapshot sampleDecimals original gross (some .basic) 0 "BDT" (.fixed (ofInt 0)) = .ok quote ∧
    Booked quote booked tickets ∧ Positive quote ∧ Captures quote captured ∧
    ∀ result, allocateInitial plainCasing (.arr booked) (.arr tickets) quote captured ≠ .ok result

theorem sample_refused {counts : List (String × Nat)} {supplier : Nat} {types numbers : List String}
    {units : Int} {rows : List (String × Nat × Option BigDecimal)}
    (hsample : (sampleKindsQuote counts supplier).map (fun x => (kindRows x.2, payableOf x.2,
      (allocateInitial plainCasing (.arr (sampleBooked types)) (.arr (sampleTickets numbers)) x.2
        units).toOption)) = .ok (rows, some ⟨units, 2⟩, none))
    (hpos : 0 < units) (hrows : ∀ row ∈ rows, ∃ n : Int, row.2.2 = some ⟨n, 2⟩ ∧ 0 < n)
    (hfew : types.length ≤ 20) (hlength : numbers.length = types.length) (hnodup : numbers.Nodup)
    {kind : String} (htypes : ∀ t ∈ types, toAsciiLowercase t = kind)
    (hkinds : ∀ row ∈ rows, toAsciiLowercase row.1 = kind)
    (htotal : types.length = (rows.map (·.2.1)).sum) :
    Refused (sampleKinds counts supplier) (sampleBooked types) (sampleTickets numbers) units := by
  obtain ⟨⟨gross, quote⟩, hquote, hread⟩ := map_eq_ok.mp hsample
  simp only [Prod.mk.injEq] at hread
  obtain ⟨rfl, hpayable, hrefused⟩ := hread
  obtain ⟨hprojected, hsnapshot⟩ := sampleKindsQuote_ok hquote
  have hminor : ∀ n : Int, 0 < n → 0 < toRat ⟨n, 2⟩ := by
    intro n hn
    have hn' : (0 : ℚ) < n := by exact_mod_cast hn
    rw [toRat_minor]
    positivity
  refine ⟨gross, quote, hprojected, hsnapshot,
    sampleBooked_booked hfew hlength hnodup (counts_single htypes hkinds htotal),
    positive_rows hpayable (hminor units hpos) fun row hrow => ?_,
    ⟨_, hpayable, (hundred_toRat units).symm⟩, fun result hresult => ?_⟩
  · obtain ⟨n, hn, hn'⟩ := hrows row hrow
    exact ⟨_, hn, hminor n hn'⟩
  · rw [hresult] at hrefused
    cases hrefused

/-- Blank, long and coinciding numbers are refused, kinds that differ in case only, and more than
`MAX_MINOR`. -/
theorem allocateInitial_refuses :
    Refused (sampleKinds [("adt", 1)] 100) (sampleBooked ["ADT"]) (sampleTickets [" "]) 10000 ∧
    Refused (sampleKinds [("adt", 1)] 100) (sampleBooked ["ADT"])
      (sampleTickets [String.ofList (List.replicate 81 '1')]) 10000 ∧
    Refused (sampleKinds [("adt", 2)] 100) (sampleBooked ["ADT", "ADT"])
      (sampleTickets [" 176-1", "176-1"]) 20000 ∧
    Refused (sampleKinds [("ADT", 1), ("adt", 1)] 100) (sampleBooked ["ADT", "ADT"])
      (sampleTickets ["176-1", "176-2"]) 20000 ∧
    Refused (sampleKinds [("adt", 1)] 90071992547410) (sampleBooked ["ADT"])
      (sampleTickets ["176-1"]) 9007199254741000 := by
  refine ⟨?_, ?_, ?_, ?_, ?_⟩
  · exact @sample_refused _ _ _ _ _ [("adt", 1, some ⟨10000, 2⟩)] (by decide +kernel)
      (by decide) (by simp) (by decide) rfl (by decide) "adt" (by decide) (by decide) rfl
  · exact @sample_refused _ _ _ _ _ [("adt", 1, some ⟨10000, 2⟩)] (by decide +kernel)
      (by decide) (by simp) (by decide) rfl (by decide) "adt" (by decide) (by decide) rfl
  · exact @sample_refused _ _ _ _ _ [("adt", 2, some ⟨10000, 2⟩)] (by decide +kernel)
      (by decide) (by simp) (by decide) rfl (by decide) "adt" (by decide) (by decide) rfl
  · exact @sample_refused _ _ _ _ _ [("ADT", 1, some ⟨10000, 2⟩), ("adt", 1, some ⟨10000, 2⟩)]
      (by decide +kernel) (by decide) (by simp) (by decide) rfl (by decide) "adt"
      (by decide) (by decide) rfl
  · exact @sample_refused _ _ _ _ _ [("adt", 1, some ⟨9007199254741000, 2⟩)]
      (by decide +kernel) (by decide) (by simp) (by decide) rfl (by decide) "adt" (by decide)
      (by decide) rfl

end ShaponTravels.Wallet.TicketManagement
