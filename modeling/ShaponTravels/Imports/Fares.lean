import ShaponTravels.Imports.Document

/-!
# Fares — the fares of an imported booking

The fares of a supplier are read again in cents for the receipt, and once more for the machine client that
reads its flight.
-/

namespace ShaponTravels.Imports

open Library Pricing BigDecimal
open Booking (Casing)

variable {d : Decimals} {cs : Casing} {w : Writer} {v row data pricing : Value} {a : BigDecimal} {l : Line}

/-! ## Whole cents -/

theorem toRat_whole (n : Int) : toRat ⟨n, 0⟩ = n := toRat_ofInt n

/-- Cutting off a whole number cuts off nothing. -/
theorem withScale_whole {n : Int} (h : a.toRat = n) : a.withScale 0 = ⟨n, 0⟩ := by
  unfold withScale
  split
  · rename_i hscale
    have halign := align_cast a hscale
    rw [h, zpow_zero, mul_one] at halign
    have hn : a.align 0 = n := by exact_mod_cast halign
    rw [hn]
  · rename_i hscale
    generalize hk : (a.scale - 0).toNat = k
    have hscale' : a.scale = k := by omega
    have hdigits : a.digits = n * 10 ^ k := by
      have hpow : (10 : ℚ) ^ (-(k : Int)) = (10 ^ k)⁻¹ := by rw [zpow_neg, zpow_natCast]
      rw [toRat, hscale', hpow, ← div_eq_mul_inv, div_eq_iff (by positivity)] at h
      exact_mod_cast h
    have hunit : (10 : Int) ^ k ≠ 0 := by positivity
    rw [hdigits, Int.mul_tdiv_cancel _ hunit]

/-- What is read as cents is a number of them, up to the limit of an `i64`. -/
theorem minor_eq_some {m : Int} :
    minor v = some m ↔ Reads v (m / 100) ∧ 0 ≤ m ∧ m ≤ bigintMax := by
  simp only [minor, Option.bind_eq_bind, Option.bind_eq_some_iff, Option.guard_eq_some', Option.filter_eq_some_iff,
    i64?_eq_some, exists_const, decide_eq_true_eq, cmp_eq_eq, Reads]
  constructor
  · rintro ⟨x, hx, hwhole, ⟨⟨-, hmax⟩, hm⟩, hnonneg⟩
    refine ⟨⟨x, hx, ?_⟩, hnonneg, ?_⟩
    · have hscale : ((x.mul (ofInt 100)).withScale 0) = ⟨((x.mul (ofInt 100)).withScale 0).digits, 0⟩ := by
        unfold withScale
        split <;> rfl
      rw [hscale, hm, toRat_mul_ofInt, toRat_whole] at hwhole
      push_cast at hwhole
      linarith
    · omega
  · rintro ⟨⟨x, hx, hvalue⟩, hnonneg, hmax⟩
    have hcents : (x.mul (ofInt 100)).toRat = m := by
      rw [toRat_mul_ofInt, hvalue]
      push_cast
      linarith
    have hwhole := withScale_whole hcents
    refine ⟨x, hx, ?_, ⟨?_, ?_⟩, hnonneg⟩
    · rw [hwhole, toRat_whole, hcents]
    · rw [hwhole]
      show -bigintMax - 1 ≤ m ∧ m ≤ bigintMax
      unfold bigintMax at hmax ⊢
      omega
    · rw [hwhole]

/-! ## A supplier's row in cents -/

/-- What all passengers of a type pay, in cents. -/
structure Fare where
  type : String
  count : Nat
  base : Int
  taxes : Int
  service : Int
  ait : Int

namespace Fare

/-- The row is the fare: each amount is a number of whole cents. -/
structure Read (row : Value) (f : Fare) : Prop where
  type : row.field "passengerType" = .str f.type
  count : (row.field "count").asU64? = some f.count
  base : minor (row.field "basePrice") = some f.base
  taxes : minor (row.field "taxes") = some f.taxes
  service : minor (row.field "serviceCharge") = some f.service
  ait : minor (row.field "ait") = some f.ait

/-- What is paid in all. -/
def total (f : Fare) : Int := f.base + f.taxes + f.service + f.ait

def ticket (cs : Casing) (f : Fare) : Ticket :=
  ⟨cs.uppercase f.type, f.count, f.base, f.taxes + f.service, f.ait⟩

end Fare

theorem Fare.gross_ticket (cs : Casing) (f : Fare) : (f.ticket cs).gross = f.total := by
  unfold Fare.ticket Ticket.gross Fare.total
  dsimp only
  omega

/-- The amounts of a ticket are those of a line times its count. -/
structure Ticket.Shares (t : Ticket) (l : Line) : Prop where
  count : t.count = l.count
  base : t.base = l.count * l.base
  taxes : t.taxes = l.count * l.taxes
  ait : t.ait = l.count * l.ait
  nonneg : 0 ≤ l.base ∧ 0 ≤ l.taxes ∧ 0 ≤ l.ait

theorem Ticket.Shares.gross {t : Ticket} (h : t.Shares l) : t.gross = l.count * l.face := by
  rw [Ticket.gross, h.base, h.taxes, h.ait, Line.face, Line.gross]
  ring

theorem Ticket.Shares.bounds {t : Ticket} (h : t.Shares l) :
    0 ≤ t.base ∧ 0 ≤ t.taxes ∧ 0 ≤ t.ait ∧ t.base + t.taxes + t.ait = t.gross := by
  obtain ⟨hb, ht, ha⟩ := h.nonneg
  refine ⟨?_, ?_, ?_, rfl⟩
  · rw [h.base]
    exact Int.mul_nonneg (Int.natCast_nonneg _) hb
  · rw [h.taxes]
    exact Int.mul_nonneg (Int.natCast_nonneg _) ht
  · rw [h.ait]
    exact Int.mul_nonneg (Int.natCast_nonneg _) ha

theorem Reads.unique {q q' : ℚ} (h : Reads v q) (h' : Reads v q') : q = q' := by
  obtain ⟨x, hx, rfl⟩ := h
  obtain ⟨y, hy, rfl⟩ := h'
  rw [Option.some.inj (hx.symm.trans hy)]

theorem reads_of_supplierAmount (h : supplierAmount v = .ok a) : Reads v a.toRat :=
  ⟨a, decimal_of_supplierAmount h, rfl⟩

/-- A service charge that is a number is not left out. -/
theorem service_present {b : BigDecimal} (h : supplierAmount (row.field "serviceCharge") = .ok b) :
    (row.get? "serviceCharge").getD (.ofInt 0) = row.field "serviceCharge" := by
  cases hget : row.get? "serviceCharge" with
  | some x => rw [Value.field_of_get? hget]; rfl
  | none =>
    have hread := decimal_of_supplierAmount h
    rw [Value.field, hget] at hread
    have hnull : decimal (Option.getD none Value.null) = none := by decide
    rw [hnull] at hread
    cases hread

/-- An amount shared by the passengers is the share times their number. -/
theorem shared_amount (hd : Cents d) {n : Nat} {units m : Int} (hpos : 0 < n) (hle : n ≤ 20) (hm : 0 ≤ m)
    (hmax : m < 2 ^ 64) (ha : a.toRat = m / 100) (h : (d.quotient a (ofInt n)).toRat = units / 100) :
    m = n * units ∧ 0 ≤ units := by
  obtain ⟨k, rfl⟩ := Int.eq_ofNat_of_zero_le hm
  obtain ⟨share, rfl, rfl⟩ := hd.share hpos hle (by exact_mod_cast hmax)
    (by rw [ha, Int.cast_natCast]) h
  exact ⟨Nat.cast_mul n share, Int.natCast_nonneg _⟩

/-- An amount of cents is what was priced. -/
theorem minor_of_supplierAmount {m : Int} (hread : minor v = some m) (h : supplierAmount v = .ok a) :
    a.toRat = m / 100 ∧ 0 ≤ m ∧ m ≤ bigintMax := by
  obtain ⟨hreads, hnonneg, hmax⟩ := minor_eq_some.mp hread
  exact ⟨(reads_of_supplierAmount h).unique hreads, hnonneg, hmax⟩

/-- A quoted row in whole cents is shared by its passengers. -/
theorem Fare.Read.shared (hd : Cents d) {f : Fare} (h : f.Read row) (hq : l.Quoted d cs row) :
    (f.ticket cs).Shares l := by
  obtain ⟨x, hx, hbaseShare⟩ := hq.base
  obtain ⟨y, z, hy, hz, htaxesShare⟩ := hq.taxes
  obtain ⟨u, hu, haitShare⟩ := hq.ait
  obtain ⟨hx', hbase₀, hbase⟩ := minor_of_supplierAmount h.base hx
  obtain ⟨hy', htaxes₀, htaxes⟩ := minor_of_supplierAmount h.taxes hy
  obtain ⟨hz', hservice₀, hservice⟩ := minor_of_supplierAmount h.service hz
  obtain ⟨hu', hait₀, hait⟩ := minor_of_supplierAmount h.ait hu
  have hsum : (y.add z).toRat = ((f.taxes + f.service : Int) : ℚ) / 100 := by
    rw [toRat_add, hy', hz']
    push_cast
    ring
  unfold bigintMax at hbase htaxes hservice hait
  obtain ⟨hb, hb₀⟩ := shared_amount hd hq.positive hq.few hbase₀ (by omega) hx' hbaseShare
  obtain ⟨ht, ht₀⟩ := shared_amount hd hq.positive hq.few (by omega) (by omega) hsum htaxesShare
  obtain ⟨hw, hw₀⟩ := shared_amount hd hq.positive hq.few hait₀ (by omega) hu' haitShare
  have hcount : f.count = l.count := Option.some.inj (h.count.symm.trans hq.count)
  exact ⟨hcount, hb, ht, hw, hb₀, ht₀, hw₀⟩

/-! ## The rows of the receipt -/

/-- What is read of a row for the receipt is the row in whole cents. -/
theorem ticketOf_read {t : Ticket} (hservice : (row.get? "serviceCharge").getD (.ofInt 0) = row.field "serviceCharge")
    (h : ticketOf cs row = some t) : ∃ f : Fare, f.Read row ∧ t = f.ticket cs := by
  simp only [ticketOf, hservice, Option.bind_eq_bind, Option.bind_eq_some_iff, Option.pure_def, Option.some.injEq,
    Option.filter_eq_some_iff, Value.asStr?_eq_some, i64?_eq_some] at h
  obtain ⟨type, htype, count, ⟨hcount, -⟩, base, hbase, taxes, htaxes, service, hservice, sum, ⟨-, rfl⟩, ait, hait,
    -, -, -, -, rfl⟩ := h
  exact ⟨⟨type, count, base, taxes, service, ait⟩, ⟨htype, hcount, hbase, htaxes, hservice, hait⟩, rfl⟩

/-- A row in whole cents is read, if its sum does not overflow. -/
theorem ticketOf_of_read {f : Fare} (hservice : (row.get? "serviceCharge").getD (.ofInt 0) = row.field "serviceCharge")
    (h : f.Read row) (hcount : 0 < f.count ∧ f.count ≤ 20) (hmax : f.total ≤ bigintMax) :
    ticketOf cs row = some (f.ticket cs) := by
  have hbase := (minor_eq_some.mp h.base).2
  have htaxes := (minor_eq_some.mp h.taxes).2
  have hcharge := (minor_eq_some.mp h.service).2
  have hait := (minor_eq_some.mp h.ait).2
  unfold Fare.total at hmax
  unfold bigintMax at hmax
  simp only [ticketOf, hservice, Option.bind_eq_bind, Option.bind_eq_some_iff, Option.pure_def, Option.some.injEq,
    Option.filter_eq_some_iff, Value.asStr?_eq_some, i64?_eq_some, bigintMax, decide_eq_true_eq]
  refine ⟨f.type, h.type, f.count, ⟨h.count, hcount⟩, f.base, h.base, f.taxes, h.taxes, f.service, h.service, _,
    ⟨by omega, rfl⟩, f.ait, h.ait, _, ⟨by omega, rfl⟩, _, ⟨by omega, rfl⟩, rfl⟩

/-- The rows that are read, with the lines they are quoted as. -/
theorem fares_of_tickets {rows : List Value} {lines : List Line} {ts : List Ticket}
    (hquoted : List.Forall₂ (Line.Quoted d cs) rows lines)
    (hts : List.Forall₂ (fun row t => ticketOf cs row = some t) rows ts) :
    ∃ fares, List.Forall₂ (fun row (f : Fare) => f.Read row) rows fares ∧ ts = fares.map (Fare.ticket cs) := by
  induction hquoted generalizing ts with
  | nil =>
    cases hts
    exact ⟨[], .nil, rfl⟩
  | cons hq _ ih =>
    cases hts with
    | cons ht hrest =>
      obtain ⟨_, b, _, hb, _⟩ := hq.taxes
      obtain ⟨f, hf, rfl⟩ := ticketOf_read (service_present hb) ht
      obtain ⟨fares, hfares, rfl⟩ := ih hrest
      exact ⟨f :: fares, .cons hf hfares, rfl⟩

/-- The fare is the line of its type times its count. -/
structure Fare.Lined (cs : Casing) (f : Fare) (l : Line) : Prop where
  shares : (f.ticket cs).Shares l
  kind : l.kind = cs.lower f.type

theorem fares_lined (hd : Cents d) {rows : List Value} {lines : List Line} {fares : List Fare}
    (hquoted : List.Forall₂ (Line.Quoted d cs) rows lines)
    (hfares : List.Forall₂ (fun row (f : Fare) => f.Read row) rows fares) :
    List.Forall₂ (Fare.Lined cs) fares lines := by
  induction hquoted generalizing fares with
  | nil =>
    cases hfares
    exact .nil
  | cons hq _ ih =>
    cases hfares with
    | cons hf hrest =>
      obtain ⟨type, htype, hkind⟩ := hq.kind
      have hsame : type = _ := Value.str.inj (htype.symm.trans hf.type)
      exact .cons ⟨hf.shared hd hq, by rw [hkind, hsame]⟩ (ih hrest)

theorem lined_shares {fares : List Fare} {lines : List Line} (h : List.Forall₂ (Fare.Lined cs) fares lines) :
    List.Forall₂ Ticket.Shares (fares.map (Fare.ticket cs)) lines := by
  rw [List.forall₂_map_left_iff]
  exact h.imp fun _ _ hlined => hlined.shares

/-- The tickets add up to what the lines cost. -/
theorem sum_gross {ts : List Ticket} {lines : List Line} (h : List.Forall₂ Ticket.Shares ts lines) :
    (ts.map Ticket.gross).sum = faceTotal lines := by
  induction h with
  | nil => rfl
  | cons ht _ ih =>
    rw [List.map_cons, List.sum_cons, ih, ht.gross]
    rfl

theorem gross_nonneg {ts : List Ticket} {lines : List Line} (h : List.Forall₂ Ticket.Shares ts lines) :
    ∀ t ∈ ts, 0 ≤ t.gross := by
  intro t ht
  obtain ⟨l, -, hl⟩ := exists_right h ht
  obtain ⟨hb, htax, ha, hsum⟩ := hl.bounds
  omega

theorem gross_le {ts : List Ticket} {lines : List Line} (h : List.Forall₂ Ticket.Shares ts lines) :
    ∀ t ∈ ts, t.gross ≤ faceTotal lines := by
  intro t ht
  rw [← sum_gross h]
  apply List.single_le_sum
  · intro n hn
    obtain ⟨t', ht', rfl⟩ := List.mem_map.mp hn
    exact gross_nonneg h t' ht'
  · exact List.mem_map_of_mem ht

theorem tickets_of_fares {rows : List Value} {lines : List Line} {fares : List Fare}
    (hquoted : List.Forall₂ (Line.Quoted d cs) rows lines)
    (hfares : List.Forall₂ (fun row (f : Fare) => f.Read row) rows fares)
    (hmax : ∀ f ∈ fares, f.total ≤ bigintMax) :
    List.Forall₂ (fun row t => ticketOf cs row = some t) rows (fares.map (Fare.ticket cs)) := by
  induction hquoted generalizing fares with
  | nil =>
    cases hfares
    exact .nil
  | @cons row l rows lines hq _ ih =>
    cases hfares with
    | @cons _ f _ fares hf hrest =>
      obtain ⟨_, b, _, hb, _⟩ := hq.taxes
      have hcount : f.count = l.count := Option.some.inj (hf.count.symm.trans hq.count)
      exact .cons (ticketOf_of_read (service_present hb) hf (hcount ▸ ⟨hq.positive, hq.few⟩)
        (hmax f List.mem_cons_self)) (ih hrest fun f hf => hmax f (List.mem_cons_of_mem _ hf))

/-- The counts by kind of the rows that have been read, on top of those before. -/
def counted (v : Value) (ts : List Ticket) : Value :=
  (ts.map fun t => (t.kind, t.count)).foldl
    (fun v c => v.setField c.1 (.ofInt (((v.field c.1).asU64?.getD 0 + c.2 : Nat)))) v

/-- The run of the loop: the rows, their sum and their counts. -/
theorem ticketRows_ok {rows : List Value} {s s' : Tickets} (h : rows.foldlM (ticketRow cs w) s = some s') :
    ∃ ts, List.Forall₂ (fun row t => ticketOf cs row = some t) rows ts ∧
      s' = ⟨counted s.seen ts, s.total + (ts.map Ticket.gross).sum, s.rows ++ ts.map (Ticket.row w)⟩ := by
  induction rows generalizing s with
  | nil =>
    rw [List.foldlM_nil, Option.pure_def, Option.some.injEq] at h
    subst h
    exact ⟨[], .nil, by simp [counted]⟩
  | cons row rows ih =>
    rw [List.foldlM_cons, Option.bind_eq_bind, Option.bind_eq_some_iff] at h
    obtain ⟨next, hnext, hrest⟩ := h
    simp only [ticketRow, Option.bind_eq_bind, Option.bind_eq_some_iff, Option.guard_eq_some', Option.pure_def,
      Option.some.injEq, exists_const, i64?_eq_some] at hnext
    obtain ⟨t, ht, -, ⟨-, rfl⟩, -, rfl⟩ := hnext
    obtain ⟨ts, hts, rfl⟩ := ih hrest
    refine ⟨t :: ts, .cons ht hts, ?_⟩
    simp only [List.map_cons, List.sum_cons, List.append_assoc, List.singleton_append, Int.add_assoc]
    rfl

/-- Rows whose sum does not overflow are read to the end. -/
theorem ticketRows_of {rows : List Value} {ts : List Ticket} {s : Tickets}
    (hts : List.Forall₂ (fun row t => ticketOf cs row = some t) rows ts)
    (hobject : s.seen.isObject) (hseen : ∀ k, (s.seen.field k).asU64?.getD 0 + 20 * rows.length < 2 ^ 64)
    (hcounts : ∀ t ∈ ts, t.count ≤ 20 ∧ 0 ≤ t.gross) (htotal : 0 ≤ s.total)
    (hmax : s.total + (ts.map Ticket.gross).sum ≤ bigintMax) :
    ∃ s', rows.foldlM (ticketRow cs w) s = some s' := by
  induction hts generalizing s with
  | nil => exact ⟨s, rfl⟩
  | @cons row t rows ts ht _ ih =>
    obtain ⟨hcount, hgross⟩ := hcounts t List.mem_cons_self
    have hrest : 0 ≤ (ts.map Ticket.gross).sum := by
      apply List.sum_nonneg
      intro n hn
      obtain ⟨t', ht', rfl⟩ := List.mem_map.mp hn
      exact (hcounts t' (List.mem_cons_of_mem _ ht')).2
    rw [List.map_cons, List.sum_cons] at hmax
    have hkind := hseen t.kind
    rw [List.length_cons] at hkind
    have hsum : i64? (s.total + t.gross) = some (s.total + t.gross) := by
      rw [i64?_eq_some]
      unfold bigintMax at hmax ⊢
      omega
    have hstep : ticketRow cs w s row = some ⟨s.seen.setField t.kind
        (.ofInt (((s.seen.field t.kind).asU64?.getD 0 + t.count : Nat))), s.total + t.gross, s.rows ++ [t.row w]⟩ := by
      have hguard : (s.seen.field t.kind).asU64?.getD 0 + t.count < 2 ^ 64 := by omega
      simp only [ticketRow, ht, hsum, Option.bind_eq_bind, Option.bind_some, guard, if_pos hguard]
      rfl
    rw [List.foldlM_cons, Option.bind_eq_bind, hstep, Option.bind_some]
    apply ih
    · exact Value.isObject_setField hobject
    · intro k
      by_cases hk : k = t.kind
      · subst hk
        rw [Value.field_setField_self hobject]
        have hread : (Value.ofInt (((s.seen.field t.kind).asU64?.getD 0 + t.count : Nat))).asU64? =
            some ((s.seen.field t.kind).asU64?.getD 0 + t.count) := Value.asU64?_ofInt (by omega)
        rw [hread, Option.getD_some]
        omega
      · have hk' := hseen k
        rw [List.length_cons] at hk'
        rw [Value.field_setField_ne hk]
        omega
    · exact fun t' ht' => hcounts t' (List.mem_cons_of_mem _ ht')
    · show 0 ≤ s.total + t.gross
      omega
    · show s.total + t.gross + (ts.map Ticket.gross).sum ≤ bigintMax
      omega

/-! ## The kinds of the receipt -/

theorem counted_isSome {counts : List (String × Nat)} (hv : v.isObject) (k : String) :
    ((counts.foldl (fun v c => v.setField c.1 (.ofInt (((v.field c.1).asU64?.getD 0 + c.2 : Nat)))) v).get? k).isSome ↔
      (v.get? k).isSome ∨ k ∈ counts.map Prod.fst := by
  induction counts generalizing v with
  | nil => simp
  | cons c counts ih =>
    rw [List.foldl_cons, ih (Value.isObject_setField hv), List.map_cons, List.mem_cons]
    by_cases hk : k = c.1
    · subst hk
      rw [Value.get?_setField_self hv]
      simp
    · rw [Value.get?_setField_ne hk]
      simp [hk]

/-- A key is counted when it is there. -/
theorem tally_isSome (counts : List (String × Nat)) (k : String) :
    ((tally counts).get? k).isSome ↔ k ∈ counts.map Prod.fst := by
  have hstart : ((Value.object []).get? k).isSome ↔ False := by simp [Value.object, Value.get?]
  rw [tally, counted_isSome rfl, hstart, false_or]

/-- Kinds that are counted as the travellers are spelled are, in lower case, the ones that are priced. -/
theorem kinds_perm {types : List String} {ts : List Ticket} {lines : List Line}
    (hnodup : (lines.map (·.kind)).Nodup) (hlength : ts.length = lines.length)
    (hpriced : ∃ fields, tally (types.map fun type => (cs.lower type, 1)) = .obj fields ∧
      fields.Perm (lines.map fun l => (l.kind, Value.ofInt l.count)))
    (hspelled : tally (ts.map fun t => (t.kind, t.count)) = tally (types.map fun type => (type, 1))) :
    (lines.map (·.kind)).Perm (ts.map fun t => cs.lower t.kind) := by
  obtain ⟨fields, hfields, hperm⟩ := hpriced
  apply (List.subperm_of_subset hnodup ?_).perm_of_length_le
  · rw [List.length_map, List.length_map, hlength]
  intro kind hkind
  -- A kind that is priced is the one of a traveller, whose spelling is the one of a row.
  have hcounted : kind ∈ (types.map fun type => (cs.lower type, 1)).map Prod.fst := by
    rw [← tally_isSome, hfields, Value.get?, Option.isSome_map, List.find?_isSome]
    obtain ⟨l, hl, rfl⟩ := List.mem_map.mp hkind
    exact ⟨_, hperm.mem_iff.mpr (List.mem_map_of_mem hl), decide_eq_true rfl⟩
  obtain ⟨c, hc, rfl⟩ := List.mem_map.mp hcounted
  obtain ⟨type, htype, rfl⟩ := List.mem_map.mp hc
  have hspelt : type ∈ (types.map fun type => (type, 1)).map Prod.fst := by
    rw [List.map_map]
    exact List.mem_map.mpr ⟨type, htype, rfl⟩
  rw [← tally_isSome, ← hspelled, tally_isSome, List.map_map] at hspelt
  obtain ⟨t, ht, rfl⟩ := List.mem_map.mp hspelt
  exact List.mem_map.mpr ⟨t, ht, rfl⟩

/-! ## The flight -/

/-- The assumption on the numbers of a document: an amount of cents that the portal takes is read back. -/
def Writes (w : Writer) : Prop :=
  ∀ n : Int, 0 ≤ n → n ≤ 99999999999999 → ∃ x, BigDecimal.parse (w.cents n) = some x ∧ x.toRat = n / 100

theorem Cents.shows (hd : Cents d) {n : Int} (h : a.toRat = n / 100) : Shows (numeric d a) n := by
  obtain ⟨x, hx, hvalue⟩ := hd.reads a n h
  exact ⟨d.display a, x, rfl, hx, hvalue.trans h⟩

/-- The line as the flight names it. -/
def Ticket.line (cs : Casing) (t : Ticket) (l : Line) : Line := { l with kind := cs.lower t.kind }

/-- A written amount is shared exactly. -/
theorem written_share (hd : Cents d) (hw : Writes w) {n : Nat} {m units : Int} (hpos : 0 < n) (hle : n ≤ 20)
    (hm : m = n * units) (hunits : 0 ≤ units) (hmax : m ≤ 99999999999999) :
    ∃ x, decimal (.num (w.cents m)) = some x ∧ (d.quotient x (ofInt n)).toRat = units / 100 := by
  have hm₀ : 0 ≤ m := hm ▸ Int.mul_nonneg (Int.natCast_nonneg _) hunits
  obtain ⟨x, hx, hvalue⟩ := hw m hm₀ hmax
  obtain ⟨k, rfl⟩ := Int.eq_ofNat_of_zero_le hunits
  have hproduct : ((n * k : Nat) : Int) = m := by rw [hm, Nat.cast_mul]
  refine ⟨x, hx, ?_⟩
  rw [hd.divides x n k hpos hle (by omega) (by rw [hvalue, ← hproduct, Int.cast_natCast]), Int.cast_natCast]

/-- The step: a row of the receipt is shown as its line. -/
theorem fareRow_shown (hd : Cents d) (hw : Writes w) {s : Fares} {shown : List Line} {t : Ticket}
    (hs : s.Holds shown) (ht : t.Shares l) (hpos : 0 < l.count) (hle : l.count ≤ 20)
    (hmax : t.gross ≤ 99999999999999) (hnew : cs.lower t.kind ∉ shown.map (·.kind)) :
    ∃ s', fareRow d cs s (t.row w) = some s' ∧ s'.Holds (shown ++ [t.line cs l]) := by
  obtain ⟨hb₀, ht₀, ha₀, hsum⟩ := ht.bounds
  obtain ⟨x, hx, hbase⟩ := written_share hd hw hpos hle ht.base ht.nonneg.1 (by omega)
  obtain ⟨y, hy, htaxes⟩ := written_share hd hw hpos hle ht.taxes ht.nonneg.2.1 (by omega)
  obtain ⟨z, hz, hait⟩ := written_share hd hw hpos hle ht.ait ht.nonneg.2.2 (by omega)
  have hfield : ∀ key v, (t.row w).get? key = some v → (t.row w).field key = v := fun _ _ => Value.field_of_get?
  have hkind : (t.row w).field "passengerType" = .str t.kind :=
    hfield _ _ (by rw [Ticket.row, Value.get?_object]; rfl)
  have hcount : ((t.row w).field "count").asU64? = some l.count := by
    rw [hfield "count" (.ofInt t.count) (by rw [Ticket.row, Value.get?_object]; rfl), ht.count]
    exact Value.asU64?_ofInt (by omega)
  have hbaseField : (t.row w).field "basePrice" = .num (w.cents t.base) :=
    hfield _ _ (by rw [Ticket.row, Value.get?_object]; rfl)
  have htaxesField : (t.row w).field "taxes" = .num (w.cents t.taxes) :=
    hfield _ _ (by rw [Ticket.row, Value.get?_object]; rfl)
  have haitField : (t.row w).field "ait" = .num (w.cents t.ait) :=
    hfield _ _ (by rw [Ticket.row, Value.get?_object]; rfl)
  have hnone : s.fares.get? (cs.lower t.kind) = none := by
    cases hget : s.fares.get? (cs.lower t.kind) with
    | none => rfl
    | some v =>
      obtain ⟨fields, hfields, hperm⟩ := hs.fares
      rw [hfields, Value.get?, Option.map_eq_some_iff] at hget
      obtain ⟨f, hf, -⟩ := hget
      have hmem := hperm.mem_iff.mp (List.mem_map_of_mem (f := Prod.fst) (List.mem_of_find?_eq_some hf))
      have hkey : f.1 = cs.lower t.kind := by simpa using List.find?_some hf
      exact absurd (hkey ▸ hmem) hnew
  have hround : ([d.quotient x (ofInt l.count), d.quotient y (ofInt l.count), d.quotient z (ofInt l.count)].all
      isRound) = true := by
    simp [isRound_iff.mpr ⟨_, hbase⟩, isRound_iff.mpr ⟨_, htaxes⟩, isRound_iff.mpr ⟨_, hait⟩]
  have hrow : fareRow d cs s (t.row w) = some
      ⟨s.fares.setField (cs.lower t.kind) (.object [("basePrice", numeric d (d.quotient x (ofInt l.count))),
          ("taxes", numeric d (d.quotient y (ofInt l.count))), ("ait", numeric d (d.quotient z (ofInt l.count))),
          ("totalPrice", numeric d ((d.quotient x (ofInt l.count)).add (d.quotient y (ofInt l.count)))),
          ("discountPrice", .ofInt 0), ("serviceCharge", .ofInt 0)]),
        s.counts.setField (cs.lower t.kind) (.ofInt l.count),
        s.total.addAssign (((d.quotient x (ofInt l.count)).add (d.quotient y (ofInt l.count))).mul (ofInt l.count))⟩ := by
    simp only [fareRow, hkind, Value.asStr?, hnone, hcount, hbaseField, htaxesField, haitField, hx, hy, hz, hround,
      Option.bind_eq_bind, Option.bind_some, Option.filter_some, decide_eq_true hpos, guard, Option.isNone_none,
      if_true, Option.pure_def]
  exact ⟨_, hrow, hs.add (l := t.line cs l) (fun _ _ _ => hd.shows) hnew (by show l.count < _; omega) hbase htaxes hait⟩

/-- The run: the rows of the receipt are shown as their lines. -/
theorem fareRows_shown (hd : Cents d) (hw : Writes w) {ts : List Ticket} {lines : List Line}
    (h : List.Forall₂ Ticket.Shares ts lines) (hcounts : ∀ l ∈ lines, 0 < l.count ∧ l.count ≤ 20)
    (hmax : ∀ t ∈ ts, t.gross ≤ 99999999999999) {s : Fares} {shown : List Line} (hs : s.Holds shown)
    (hnodup : (shown.map (·.kind) ++ ts.map fun t => cs.lower t.kind).Nodup) :
    ∃ s', (ts.map (Ticket.row w)).foldlM (fareRow d cs) s = some s' ∧
      s'.Holds (shown ++ List.zipWith (Ticket.line cs) ts lines) := by
  induction h generalizing s shown with
  | nil => exact ⟨s, rfl, by rw [List.zipWith_nil_left, List.append_nil]; exact hs⟩
  | @cons t l ts lines ht _ ih =>
    obtain ⟨hpos, hle⟩ := hcounts l List.mem_cons_self
    have hnew : cs.lower t.kind ∉ shown.map (·.kind) := by
      intro hmem
      rw [List.nodup_append] at hnodup
      exact hnodup.2.2 _ hmem _ List.mem_cons_self rfl
    obtain ⟨next, hnext, hholds⟩ := fareRow_shown hd hw hs ht hpos hle (hmax t List.mem_cons_self) hnew
    have hrest : ((shown ++ [t.line cs l]).map (·.kind) ++ ts.map fun t => cs.lower t.kind).Nodup := by
      rw [List.map_append, List.append_assoc]
      exact hnodup
    obtain ⟨s', hs', hall⟩ := ih (fun l hl => hcounts l (List.mem_cons_of_mem _ hl))
      (fun t ht => hmax t (List.mem_cons_of_mem _ ht)) hholds hrest
    refine ⟨s', ?_, ?_⟩
    · rw [List.map_cons, List.foldlM_cons, Option.bind_eq_bind, hnext, Option.bind_some, hs']
    · rw [List.append_assoc] at hall
      exact hall

end ShaponTravels.Imports
