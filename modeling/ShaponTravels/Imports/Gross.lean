import ShaponTravels.Imports.Fares
import ShaponTravels.Imports.Prepared

/-!
# Gross — the gross of an imported booking in its price, its receipt and its flight

The gross is added up when an import is prepared, again in cents for its receipt, and once more for the
machine client that reads its flight.
-/

namespace ShaponTravels.Imports

open Library Pricing BigDecimal
open Booking (Casing)

variable {d : Decimals} {cs : Casing} {w : Writer} {v data : Value}

/-! ## The segments -/

/-- What is picked of a value is what it has. -/
theorem get?_pick {keys : List String} {key : String} (hkey : key ∈ keys) :
    (pick v keys).get? key = v.get? key := by
  rw [pick, Value.get?_object]
  cases hv : v.get? key with
  | none =>
    rw [Option.map_eq_none_iff, List.find?_eq_none]
    intro f hf hname
    obtain ⟨k, -, hk⟩ := List.mem_filterMap.mp (List.mem_reverse.mp hf)
    obtain ⟨x, hx, rfl⟩ := Option.map_eq_some_iff.mp hk
    have hname' : k = key := by simpa using hname
    rw [← hname', hx] at hv
    cases hv
  | some x =>
    have hmem : (key, x) ∈ keys.filterMap fun key => (v.get? key).map fun x => (key, x) :=
      List.mem_filterMap.mpr ⟨key, hkey, by rw [hv]; rfl⟩
    rw [Option.map_eq_some_iff]
    cases hfound : ((keys.filterMap fun key => (v.get? key).map fun x => (key, x)).reverse.find?
        fun f => f.1 = key) with
    | none =>
      rw [List.find?_eq_none] at hfound
      exact absurd (decide_eq_true rfl) (hfound (key, x) (List.mem_reverse.mpr hmem))
    | some f =>
      obtain ⟨k, -, hk⟩ := List.mem_filterMap.mp (List.mem_reverse.mp (List.mem_of_find?_eq_some hfound))
      obtain ⟨y, hy, rfl⟩ := Option.map_eq_some_iff.mp hk
      have hname : k = key := by simpa using List.find?_some hfound
      rw [hname, hv] at hy
      exact ⟨_, rfl, (Option.some.inj hy).symm⟩

theorem field_pick {keys : List String} {key : String} (hkey : key ∈ keys) : (pick v keys).field key = v.field key := by
  rw [Value.field, get?_pick hkey]
  rfl

/-- The segments of a leg name what a client is shown of them. -/
def NamedLeg (leg : Value) : Prop :=
  ∀ segments, leg.field "segments" = .arr segments → ∀ s ∈ segments, ∀ key ∈ Itinerary.identityKeys,
    ∃ text, s.field key = .str text

/-- The segments of an itinerary do. -/
def Named (itinerary : Value) : Prop :=
  ∀ legs, itinerary.field "legs" = .arr legs → ∀ leg ∈ legs, NamedLeg leg

theorem isSome_asStr? : v.asStr?.isSome ↔ ∃ text, v = .str text := by
  rw [Option.isSome_iff_exists]
  simp

theorem checkSegment_isSome (s : Value) : (checkSegment s).isSome ↔
    ∀ key ∈ Itinerary.identityKeys, ∃ text, s.field key = .str text := by
  have hkeys : ∀ key, key ∈ ["from", "to", "departure", "arrival", "airlineCode", "flightNumber"] ↔
      key ∈ Itinerary.identityKeys := by
    intro key
    simp only [Itinerary.identityKeys, List.mem_cons, List.not_mem_nil, or_false]
    tauto
  have hbody : (checkSegment s).isSome = (["from", "to", "departure", "arrival", "airlineCode",
      "flightNumber"].mapM fun key => (s.field key).asStr?).isSome := by
    unfold checkSegment
    cases ["from", "to", "departure", "arrival", "airlineCode", "flightNumber"].mapM fun key =>
      (s.field key).asStr? <;> rfl
  rw [hbody, mapM_isSome]
  simp only [isSome_asStr?, hkeys]

/-- The leg of the document is checked as the leg it is made of. -/
theorem checkLeg_isSome (leg : Value) : (checkLeg (documentLeg leg)).isSome ↔ NamedLeg leg := by
  have hsegments : (documentLeg leg).field "segments" =
      .arr (((leg.field "segments").asArray?.getD []).map fun s => pick s segmentKeys) :=
    Value.field_setField_self rfl
  have hbody : (checkLeg (documentLeg leg)).isSome =
      ((((leg.field "segments").asArray?.getD []).map fun s => pick s segmentKeys).mapM checkSegment).isSome := by
    unfold checkLeg
    rw [hsegments]
    generalize ((leg.field "segments").asArray?.getD []).map (fun s => pick s segmentKeys) = segments
    show ((segments.mapM checkSegment).bind fun _ => some ()).isSome = _
    cases segments.mapM checkSegment <;> rfl
  have hshown : ∀ key ∈ Itinerary.identityKeys, key ∈ segmentKeys := by decide
  rw [hbody, mapM_isSome]
  constructor
  · intro h segments harray s hs key hkey
    rw [harray] at h
    obtain ⟨text, htext⟩ := (checkSegment_isSome _).mp (h _ (List.mem_map_of_mem hs)) key hkey
    rw [field_pick (hshown key hkey)] at htext
    exact ⟨text, htext⟩
  · intro h p hp
    obtain ⟨s, hs, rfl⟩ := List.mem_map.mp hp
    cases harray : (leg.field "segments").asArray? with
    | none =>
      rw [harray] at hs
      cases hs
    | some segments =>
      rw [harray] at hs
      rw [Value.asArray?_eq_some] at harray
      rw [checkSegment_isSome]
      intro key hkey
      rw [field_pick (hshown key hkey)]
      exact h segments harray s hs key hkey

/-! ## The itinerary that is shown -/

/-- An itinerary after any number of refreshes. -/
def Decorated : Value → Value → Prop :=
  Relation.ReflTransGen fun old new => ∃ fresh, Itinerary.merge old fresh = .ok new

/-- What a merge preserves of every item, it preserves of all. -/
theorem merged_forall {key : String} {R : Value → Value → Value → Prop} {P : Value → Prop} {old fresh new : Value}
    (h : Itinerary.Merged key R old fresh new) (hP : ∀ v w x, R v w x → (P x ↔ P v)) :
    ∃ olds items, old.field key = .arr olds ∧ new.field key = .arr items ∧ ((∀ x ∈ items, P x) ↔ ∀ v ∈ olds, P v) := by
  obtain ⟨olds, news, items, hold, -, hnew, -, hlength, hcount, hall⟩ := h.items
  have hpoint : ∀ i (hi : i < olds.length), P (items.get ⟨i, hcount ▸ hi⟩) ↔ P olds[i] := by
    intro i hi
    exact hP _ (news.get ⟨i, hlength ▸ hi⟩) _ (hall i _ _ _ (List.getElem?_eq_getElem hi)
      (List.getElem?_eq_getElem (hlength ▸ hi)) (List.getElem?_eq_getElem (hcount ▸ hi)))
  refine ⟨olds, items, Value.field_of_get? hold, Value.field_of_get? hnew, ?_⟩
  rw [List.forall_mem_iff_forall_getElem, List.forall_mem_iff_forall_getElem]
  constructor
  · intro hitems i hi
    exact (hpoint i hi).mp (hitems i (hcount ▸ hi))
  · intro holds i hi
    exact (hpoint i (hcount ▸ hi)).mpr (holds i (hcount ▸ hi))

theorem refreshed_named {old fresh new : Value} (h : Itinerary.Refreshed old fresh new) :
    (∀ key ∈ Itinerary.identityKeys, ∃ text, new.field key = .str text) ↔
      ∀ key ∈ Itinerary.identityKeys, ∃ text, old.field key = .str text := by
  have hsame : ∀ key ∈ Itinerary.identityKeys, new.field key = old.field key := by
    intro key hkey
    rw [Value.field, h.other key (Itinerary.identity_not_shown key hkey)]
    rfl
  exact forall₂_congr fun key hkey => by rw [hsame key hkey]

theorem refreshedLeg_named {old fresh new : Value} (h : Itinerary.RefreshedLeg old fresh new) :
    NamedLeg new ↔ NamedLeg old := by
  obtain ⟨olds, items, hold, hnew, hiff⟩ := merged_forall h fun _ _ _ => refreshed_named
  simp only [NamedLeg, hold, hnew, Value.arr.injEq, forall_eq']
  exact hiff

/-- A refresh keeps the legs, and what their segments name. -/
theorem merge_named {old fresh new : Value} (h : Itinerary.merge old fresh = .ok new) :
    (∃ legs, new.field "legs" = .arr legs) ∧ (Named new ↔ Named old) := by
  have hmerged : Itinerary.Merged "legs" Itinerary.RefreshedLeg old fresh new :=
    Itinerary.mergeItems_merged (fun _ _ _ => Itinerary.mergeLeg_merged) h
  obtain ⟨olds, items, hold, hnew, hiff⟩ := merged_forall hmerged fun _ _ _ => refreshedLeg_named
  refine ⟨⟨items, hnew⟩, ?_⟩
  simp only [Named, hold, hnew, Value.arr.injEq, forall_eq']
  exact hiff

theorem Decorated.named {old new : Value} (h : Decorated old new) (hlegs : ∃ legs, old.field "legs" = .arr legs) :
    (∃ legs, new.field "legs" = .arr legs) ∧ (Named new ↔ Named old) := by
  induction h with
  | refl => exact ⟨hlegs, .rfl⟩
  | tail _ hstep ih =>
    obtain ⟨fresh, hmerge⟩ := hstep
    obtain ⟨hnew, hiff⟩ := merge_named hmerge
    exact ⟨hnew, hiff.trans ih.2⟩

/-! ## An accepted import -/

variable {b : ImportBooking} {r : Reading} {refs : References} {state : Value} {i : Imported}
  {rows travellers : List Value} {lines : List Line}

/-- What is shown of an import is what was saved, but for the itinerary. -/
theorem shownData_field {key : String} (h : key ≠ "itinerary") : (b.shownData r).field key = b.data.field key :=
  Value.field_setField_ne h

theorem fareSource_eq (h : data.field "supplierFares" = .arr rows) (hne : rows ≠ []) : fareSource data = some rows := by
  rw [fareSource, h]
  simp [Value.asArray?, hne]

/-- The receipt has the rows of the tickets when these come to the gross and are counted as the travellers. -/
theorem buildFares_ok {gross : Int} {counts : Value} {out : List Value}
    (hrows : data.field "supplierFares" = .arr rows) (hne : rows ≠ [])
    (h : buildFares cs w data gross counts = some out) :
    ∃ ts, List.Forall₂ (fun row t => ticketOf cs row = some t) rows ts ∧ out = ts.map (Ticket.row w) ∧
      tally (ts.map fun t => (t.kind, t.count)) = counts := by
  simp only [buildFares, fareSource_eq hrows hne, Option.bind_eq_bind, Option.bind_some, Option.bind_eq_some_iff,
    Option.guard_eq_some', Option.pure_def, Option.some.injEq, exists_const] at h
  obtain ⟨s, hs, ⟨-, hseen⟩, rfl⟩ := h
  obtain ⟨ts, hts, rfl⟩ := ticketRows_ok hs
  exact ⟨ts, hts, rfl, hseen⟩

theorem buildFares_of {gross : Int} {counts : Value} {ts : List Ticket}
    (hrows : data.field "supplierFares" = .arr rows) (hne : rows ≠ []) (hfew : rows.length ≤ 5)
    (hts : List.Forall₂ (fun row t => ticketOf cs row = some t) rows ts)
    (hshares : List.Forall₂ Ticket.Shares ts lines) (hcounts : ∀ l ∈ lines, 0 < l.count ∧ l.count ≤ 20)
    (hgross : faceTotal lines = gross) (hmax : gross ≤ bigintMax)
    (hspelled : tally (ts.map fun t => (t.kind, t.count)) = counts) :
    buildFares cs w data gross counts = some (ts.map (Ticket.row w)) := by
  have hsum := sum_gross hshares
  have hstart : ∀ k : String, ((Value.object []).field k).asU64?.getD 0 + 20 * rows.length < 2 ^ 64 := by
    intro k
    have hnull : ((Value.object []).field k).asU64?.getD 0 = 0 := rfl
    omega
  have hbounds : ∀ t ∈ ts, t.count ≤ 20 ∧ 0 ≤ t.gross := by
    intro t ht
    obtain ⟨l, hl, hshare⟩ := exists_right hshares ht
    exact ⟨hshare.count ▸ (hcounts l hl).2, gross_nonneg hshares t ht⟩
  obtain ⟨s, hs⟩ := ticketRows_of (w := w) (s := ⟨.object [], 0, []⟩) hts rfl hstart hbounds (Int.le_refl 0)
    (by show 0 + (ts.map Ticket.gross).sum ≤ bigintMax; omega)
  obtain ⟨ts', hts', rfl⟩ := ticketRows_ok hs
  have hsame : ts' = ts :=
    Relator.RightUnique.forall₂ (fun _ _ _ ht ht' => Option.some.inj (ht.symm.trans ht')) hts' hts
  have htotal : (0 : Int) + (ts.map Ticket.gross).sum = gross := by omega
  simp only [buildFares, fareSource_eq hrows hne, hs, hsame, Option.bind_eq_bind, Option.bind_some]
  rw [guard, if_pos ⟨htotal, hspelled⟩]
  rfl

theorem travellerCounts_pick : travellerCounts (travellers.map fun p => pick p travellerKeys) = travellerCounts travellers := by
  have hkind : ∀ p : Value, (pick p travellerKeys).field "passengerType" = p.field "passengerType" :=
    fun p => field_pick (by decide)
  unfold travellerCounts
  simp only [List.map_map, Function.comp_def, hkind]

/-- A loaded import: its row, the rows of its receipt and the legs it shows. -/
structure Loaded (cs : Casing) (w : Writer) (b : ImportBooking) (r : Reading) (refs : References) (state : Value)
    (travellers legs : List Value) (i : Imported) : Prop where
  row : i.row = b.row refs state
  fares : (((i.document.field "booking").field "ticketFare").field "fares") =
    .arr ((buildFares cs w (b.shownData r) b.grossMinor (travellerCounts travellers)).getD [])
  legs : ((i.document.field "booking").field "itinerary").field "legs" = .arr (legs.map documentLeg)

theorem load_ok {legs : List Value} (htravellers : (b.data.field "passengers").field "travellers" = .arr travellers)
    (hobject : b.data.isObject)
    (hlegs : ((r.itinerary.getD (b.data.field "itinerary")).field "legs") = .arr legs) :
    ∃ i, load cs w b r refs state = .ok i ∧ Loaded cs w b r refs state travellers legs i := by
  have hshown : (b.shownData r).field "itinerary" = r.itinerary.getD (b.data.field "itinerary") :=
    Value.field_setField_self hobject
  have hparty : ((b.shownData r).field "passengers").field "travellers" = .arr travellers := by
    rw [shownData_field (by decide), htravellers]
  have hdocument : document cs w b r = .ok (.object [
      ("booking", documentBooking cs w b r (travellerCounts travellers)
        (documentItinerary (r.itinerary.getD (b.data.field "itinerary")) legs)),
      ("travellers", .arr (travellers.map fun p => pick p travellerKeys)), ("source", .str b.source),
      ("version", .ofInt b.version), ("requestReferences", r.metadata.field "requestReferences")]) := by
    simp only [document, hparty, hshown, hlegs, Value.asArray?, fetch_some, ok_bind, travellerCounts_pick]
    rfl
  have hbooking : ∀ x y z u v : Value, (Value.object [("booking", x), ("travellers", y), ("source", z),
      ("version", u), ("requestReferences", v)]).field "booking" = x := by
    intro x y z u v
    rw [Value.field, Value.get?_object]
    rfl
  have hfields : ∀ itinerary, (documentBooking cs w b r (travellerCounts travellers) itinerary).field "ticketFare" =
        ticketFare cs w (b.shownData r) b.grossMinor (travellerCounts travellers) ∧
      (documentBooking cs w b r (travellerCounts travellers) itinerary).field "itinerary" = itinerary := by
    intro itinerary
    constructor
    all_goals
      rw [documentBooking, Value.field, Value.get?_object]
      rfl
  refine ⟨_, by rw [load, hdocument]; rfl, rfl, ?_, ?_⟩
  · rw [hbooking, (hfields _).1, ticketFare, Value.field, Value.get?_object]
    rfl
  · rw [hbooking, (hfields _).2]
    exact Value.field_setField_self rfl

/-! ## The flight of a loaded import -/

variable {legs : List Value}

/-- Without rows there is no flight. -/
theorem Loaded.flight_none (h : Loaded cs w b r refs state travellers legs i)
    (hnone : buildFares cs w (b.shownData r) b.grossMinor (travellerCounts travellers) = none) :
    i.flight d cs = none := by
  have hfares := h.fares
  rw [hnone] at hfares
  simp [Imported.flight, hfares, Value.asArray?]

/-- With rows that can be shown there is one when every segment names what is shown of it. -/
theorem Loaded.flight_of (h : Loaded cs w b r refs state travellers legs i) {out : List Value} {s : Fares}
    (hout : buildFares cs w (b.shownData r) b.grossMinor (travellerCounts travellers) = some out) (hne : out ≠ [])
    (hs : out.foldlM (fareRow d cs) ⟨.object [], .object [], ofInt 0⟩ = some s) :
    ((i.flight d cs).isSome ↔ ∀ leg ∈ legs, NamedLeg leg) ∧
      ∀ flight, i.flight d cs = some flight → flight = flightOf d i s (legs.map documentLeg) := by
  have hfares := h.fares
  rw [hout, Option.getD_some] at hfares
  have hflight : i.flight d cs = ((legs.map documentLeg).mapM checkLeg).map fun _ =>
      flightOf d i s (legs.map documentLeg) := by
    simp only [Imported.flight, hfares, h.legs, Value.asArray?, Option.bind_eq_bind, Option.filter_some,
      decide_eq_true hne, if_true, Option.bind_some, hs]
    cases (legs.map documentLeg).mapM checkLeg <;> rfl
  have hlegs : ((legs.map documentLeg).mapM checkLeg).isSome ↔ ∀ leg ∈ legs, NamedLeg leg := by
    rw [mapM_isSome, List.forall_mem_map]
    exact forall₂_congr fun leg _ => checkLeg_isSome leg
  rw [hflight, Option.isSome_map, hlegs]
  refine ⟨.rfl, fun flight hflight => ?_⟩
  obtain ⟨-, -, heq⟩ := Option.map_eq_some_iff.mp hflight
  exact heq.symm

/-- The saved price is what is returned. -/
theorem Loaded.pricing_saved (h : Loaded cs w b r refs state travellers legs i) (hsource : b.source ≠ "MANUAL")
    (hsaved : (b.data.field "rustPricing").isObject) :
    i.pricing d cs = .ok (pick (b.data.field "rustPricing") pricingKeys) := by
  have hdata : i.row.field "data" = b.data := by
    rw [h.row, ImportBooking.row, Value.field, Value.get?_object]
    rfl
  have hname : i.row.field "source" = .str b.source := by
    rw [h.row, ImportBooking.row, Value.field, Value.get?_object]
    rfl
  have hne : Value.str b.source ≠ .str "MANUAL" := fun heq => hsource (Value.str.inj heq)
  rw [Imported.pricing, Imported.saved, hdata, hname, if_pos ⟨hne, hsaved⟩]
  rfl

/-- The report shows the price of the flight. -/
theorem report_price {report : Value} (h : i.report d cs = .ok report) :
    ∃ flight, i.flight d cs = some flight ∧
      (report.field "ticketInfo").field "ticketingPrice" = flight.field "totalPrice" := by
  simp only [Imported.report, bind_eq_ok, fetch_eq_ok, pure_eq_ok] at h
  obtain ⟨ticket, -, flight, hflight, infoes, -, passengers, -, fares, -, rfl⟩ := h
  refine ⟨flight, hflight, ?_⟩
  have hinfo : ∀ info x y z : Value, (Value.object [("ticketInfo", info), ("passengerInfo", x), ("fareBreakdown", y),
      ("segments", z)]).field "ticketInfo" = info := by
    intro info x y z
    rw [Value.field, Value.get?_object]
    rfl
  rw [hinfo, Value.field, Value.get?_object]
  rfl

/-! ## One gross -/

/-- Two values are read as the same number. -/
def SameAmount (v v' : Value) : Prop := ∃ q, Reads v q ∧ Reads v' q

/-- The flight of an import, for all passengers and for one of each kind, and its report cost the gross of
its price. -/
structure Agrees (d : Decimals) (cs : Casing) (i : Imported) (flight pricing : Value) : Prop where
  flown : i.flight d cs = some flight
  priced : i.pricing d cs = .ok pricing
  total : SameAmount (flight.field "totalPrice") (pricing.field "gross")
  kinds : ∀ kind, ((flight.field "passengerFares").get? kind).isSome ↔
    ((pricing.field "passengers").get? kind).isSome
  each : ∀ kind, ((pricing.field "passengers").get? kind).isSome →
    SameAmount (((flight.field "passengerFares").field kind).field "totalPrice")
      (((pricing.field "passengers").field kind).field "gross")
  reported : ∀ report, i.report d cs = .ok report →
    SameAmount ((report.field "ticketInfo").field "ticketingPrice") (pricing.field "gross")

/-- The supplier's rows are whole cents without a tax paid in advance, their types are spelled as the
travellers' are, in upper case, and the segments name what is shown of them; types that meet when their
upper case is lowered cost the same. -/
structure Plain (cs : Casing) (data : Value) (rows : List Value) (fares : List Fare) (travellers : List Value) :
    Prop where
  source : data.field "supplierFares" = .arr rows
  read : List.Forall₂ (fun row (f : Fare) => f.Read row) rows fares
  untaxed : ∀ f ∈ fares, f.ait = 0
  party : (data.field "passengers").field "travellers" = .arr travellers
  spelled : tally (fares.map fun f => (cs.uppercase f.type, f.count)) = travellerCounts travellers
  alike : ∀ f ∈ fares, ∀ f' ∈ fares, cs.lower (cs.uppercase f.type) = cs.lower f'.type →
    f.total * f'.count = f'.total * f.count
  named : Named (data.field "itinerary")

theorem Keyed.isSome_iff {v : Value} {lines : List Line} (h : Keyed v lines) (kind : String) :
    (v.get? kind).isSome ↔ kind ∈ lines.map (·.kind) := by
  obtain ⟨fields, rfl, hperm⟩ := h
  rw [← hperm.mem_iff, Value.get?, Option.isSome_map, List.find?_isSome]
  constructor
  · rintro ⟨f, hf, hname⟩
    exact List.mem_map.mpr ⟨f, hf, by simpa using hname⟩
  · intro hkind
    obtain ⟨f, hf, rfl⟩ := List.mem_map.mp hkind
    exact ⟨f, hf, decide_eq_true rfl⟩

/-- The lines of the flight. -/
theorem shown_kinds {ts : List Ticket} (h : List.Forall₂ Ticket.Shares ts lines) :
    (List.zipWith (Ticket.line cs) ts lines).map (·.kind) = ts.map fun t => cs.lower t.kind := by
  induction h with
  | nil => rfl
  | cons _ _ ih =>
    rw [List.zipWith_cons_cons, List.map_cons, List.map_cons, ih]
    rfl

theorem shown_due {ts : List Ticket} (h : List.Forall₂ Ticket.Shares ts lines) :
    due (List.zipWith (Ticket.line cs) ts lines) = due lines := by
  induction h with
  | nil => rfl
  | @cons t l ts lines _ _ ih =>
    show (l.count : Int) * l.gross + due (List.zipWith (Ticket.line cs) ts lines) = l.count * l.gross + due lines
    rw [ih]

/-- The flight shows a fare as its line. -/
theorem mem_shown {fares : List Fare} (h : List.Forall₂ (Fare.Lined cs) fares lines) {f : Fare} (hf : f ∈ fares) :
    ∃ l ∈ lines, f.Lined cs l ∧
      (f.ticket cs).line cs l ∈ List.zipWith (Ticket.line cs) (fares.map (Fare.ticket cs)) lines := by
  induction h with
  | nil => cases hf
  | @cons f' l fares lines hlined _ ih =>
    rw [List.map_cons, List.zipWith_cons_cons]
    rcases List.mem_cons.mp hf with rfl | hf
    · exact ⟨l, List.mem_cons_self, hlined, List.mem_cons_self⟩
    · obtain ⟨l', hl', hlined', hmem⟩ := ih hf
      exact ⟨l', List.mem_cons_of_mem _ hl', hlined', List.mem_cons_of_mem _ hmem⟩

/-- The travellers are counted by the types they have. -/
theorem travellerCounts_types {types : List String}
    (h : List.Forall₂ (fun t type => t.field "passengerType" = Value.str type) travellers types) :
    travellerCounts travellers = tally (types.map fun type => (type, 1)) := by
  have hmap : travellers.map (fun p => ((p.field "passengerType").asStr?.getD "ADT", 1)) =
      types.map fun type => (type, 1) := by
    induction h with
    | nil => rfl
    | cons ht _ ih => rw [List.map_cons, List.map_cons, ih, ht]; rfl
  rw [travellerCounts, hmap]

theorem Accepted.counts (ha : Accepted d cs b.grossMinor b.data rows lines) :
    ∀ l ∈ lines, 0 < l.count ∧ l.count ≤ 20 := by
  intro l hl
  obtain ⟨row, -, hq⟩ := exists_left ha.priced.quoted hl
  exact ⟨hq.positive, hq.few⟩

theorem receipt_ne {fares : List Fare} (hread : List.Forall₂ (fun row (f : Fare) => f.Read row) rows fares)
    (hne : rows ≠ []) : (fares.map (Fare.ticket cs)).map (Ticket.row w) ≠ [] := by
  cases hread with
  | nil => exact absurd rfl hne
  | cons _ _ => exact List.cons_ne_nil _ _

/-- Rows in whole cents whose types are spelled as the travellers' are on the receipt, and can be shown. -/
theorem Accepted.rows_shown (hd : Cents d) (hw : Writes w) (ha : Accepted d cs b.grossMinor b.data rows lines)
    {fares : List Fare} (hread : List.Forall₂ (fun row (f : Fare) => f.Read row) rows fares)
    (hparty : (b.data.field "passengers").field "travellers" = .arr travellers)
    (hspelled : tally (fares.map fun f => (cs.uppercase f.type, f.count)) = travellerCounts travellers) :
    ∃ s, buildFares cs w (b.shownData r) b.grossMinor (travellerCounts travellers) =
        some ((fares.map (Fare.ticket cs)).map (Ticket.row w)) ∧
      ((fares.map (Fare.ticket cs)).map (Ticket.row w)).foldlM (fareRow d cs) ⟨.object [], .object [], ofInt 0⟩ =
        some s ∧
      s.Holds (List.zipWith (Ticket.line cs) (fares.map (Fare.ticket cs)) lines) := by
  have hlined := fares_lined hd ha.priced.quoted hread
  have hshares := lined_shares hlined
  have hmax : ∀ t ∈ fares.map (Fare.ticket cs), t.gross ≤ 99999999999999 := by
    intro t ht
    have hle := gross_le hshares t ht
    have hgross := ha.amount
    have hlimit := ha.max
    omega
  have hbound : ∀ f ∈ fares, f.total ≤ bigintMax := by
    intro f hf
    have hle := hmax _ (List.mem_map_of_mem hf)
    rw [f.gross_ticket cs] at hle
    unfold bigintMax
    omega
  have hts := tickets_of_fares ha.priced.quoted hread hbound
  have hrows : (b.shownData r).field "supplierFares" = .arr rows := by
    rw [shownData_field (by decide), ha.priced.fares]
  have hkinds : tally ((fares.map (Fare.ticket cs)).map fun t => (t.kind, t.count)) = travellerCounts travellers := by
    rw [List.map_map]
    exact hspelled
  have hlimit : b.grossMinor ≤ bigintMax := by
    have hmax := ha.max
    unfold bigintMax
    omega
  have hbuild := buildFares_of (w := w) hrows ha.priced.nonempty ha.priced.few hts hshares ha.counts ha.amount hlimit
    hkinds
  obtain ⟨types, htypes, hpriced⟩ := ha.priced.travellers travellers hparty
  have hperm := kinds_perm ha.priced.nodup hshares.length_eq hpriced (hkinds.trans (travellerCounts_types htypes))
  have hnodup : ((fares.map (Fare.ticket cs)).map fun t => cs.lower t.kind).Nodup :=
    hperm.nodup_iff.mp ha.priced.nodup
  obtain ⟨s, hs, hholds⟩ := fareRows_shown hd hw hshares ha.counts hmax Fares.holds_nil hnodup
  exact ⟨s, hbuild, hs, hholds⟩

theorem faceTotal_eq (lines : List Line) :
    faceTotal lines = due lines + (lines.map fun l => (l.count : Int) * l.ait).sum := by
  induction lines with
  | nil => rfl
  | cons l lines ih =>
    show (l.count : Int) * l.face + faceTotal lines = l.count * l.gross + due lines +
      (l.count * l.ait + (lines.map fun l => (l.count : Int) * l.ait).sum)
    rw [ih, Line.face, Int.mul_add]
    omega

theorem Shows.reads {n : Int} (h : Shows v n) : Reads v (n / 100) := by
  obtain ⟨text, x, rfl, hx, hvalue⟩ := h
  exact ⟨x, hx, hvalue⟩

/-- Numbers of cents that are read as the same amount are the same. -/
theorem SameAmount.cents {v' : Value} {n m : Int} (h : SameAmount v v') (hn : Reads v (n / 100))
    (hm : Reads v' (m / 100)) : n = m := by
  obtain ⟨q, hq, hq'⟩ := h
  have heq : (n : ℚ) / 100 = m / 100 := (hn.unique hq).trans (hq'.unique hm)
  have hcast : (n : ℚ) = m := by linarith
  exact_mod_cast hcast

/-- What the price of an accepted import shows. -/
theorem Accepted.pricing_fields (ha : Accepted d cs b.grossMinor b.data rows lines) :
    Reads ((pick (b.data.field "rustPricing") pricingKeys).field "gross") (faceTotal lines / 100) ∧
      Keyed ((pick (b.data.field "rustPricing") pricingKeys).field "passengers") lines ∧
      ∀ l ∈ lines, Reads ((((pick (b.data.field "rustPricing") pricingKeys).field "passengers").field l.kind).field
        "gross") (l.face / 100) := by
  rw [field_pick (by decide), field_pick (by decide)]
  exact ⟨ha.priced.charges.gross, ha.priced.charges.passengers, ha.priced.charges.each⟩

/-- Fares in whole cents without a tax, spelled as the travellers are and shown by their segments, cost the
gross everywhere. -/
theorem agrees_of_plain (hd : Cents d) (hw : Writes w) (ha : Accepted d cs b.grossMinor b.data rows lines)
    (hl : Loaded cs w b r refs state travellers legs i) (hsource : b.source ≠ "MANUAL")
    (hparty : (b.data.field "passengers").field "travellers" = .arr travellers)
    (hnamed : (∀ leg ∈ legs, NamedLeg leg) ↔ Named (b.data.field "itinerary"))
    {rows' travellers' : List Value} {fares : List Fare} (hplain : Plain cs b.data rows' fares travellers') :
    ∃ flight pricing, Agrees d cs i flight pricing := by
  obtain rfl : rows' = rows := Value.arr.inj (hplain.source.symm.trans ha.priced.fares)
  obtain rfl : travellers' = travellers := Value.arr.inj (hplain.party.symm.trans hparty)
  obtain ⟨s, hbuild, hs, hholds⟩ := ha.rows_shown (r := r) hd hw hplain.read hparty hplain.spelled
  have hlined := fares_lined hd ha.priced.quoted hplain.read
  have hshares := lined_shares hlined
  obtain ⟨hsome, hflights⟩ := hl.flight_of hbuild (receipt_ne hplain.read ha.priced.nonempty) hs
  obtain ⟨flight, hflight⟩ := Option.isSome_iff_exists.mp (hsome.mpr (hnamed.mpr hplain.named))
  have hflightEq := hflights flight hflight
  obtain ⟨hgross, hpassengers, heach⟩ := ha.pricing_fields
  have huntaxed : ∀ l ∈ lines, l.ait = 0 := by
    intro l hl
    obtain ⟨f, hf, hfl⟩ := exists_left hlined hl
    have hait : f.ait = l.count * l.ait := hfl.shares.ait
    rw [hplain.untaxed f hf, eq_comm, Int.mul_eq_zero] at hait
    exact hait.resolve_left (Int.natCast_ne_zero.mpr (ha.counts l hl).1.ne')
  have hdue : due lines = faceTotal lines := by
    have hzero : (lines.map fun l => (l.count : Int) * l.ait).sum = 0 :=
      List.sum_eq_zero fun n hn => by
        obtain ⟨l, hl, rfl⟩ := List.mem_map.mp hn
        rw [huntaxed l hl, Int.mul_zero]
    rw [faceTotal_eq, hzero, Int.add_zero]
  have htotal : Reads (flight.field "totalPrice") (faceTotal lines / 100) := by
    have hshows := hd.shows hholds.total
    rw [shown_due hshares, hdue] at hshows
    rw [hflightEq, flightOf_total]
    exact hshows.reads
  have hfares : Keyed (flight.field "passengerFares")
      (List.zipWith (Ticket.line cs) (fares.map (Fare.ticket cs)) lines) := by
    rw [hflightEq, flightOf_fares]
    exact hholds.fares
  obtain ⟨types, htypes, hpriced⟩ := ha.priced.travellers _ hparty
  have hperm : (lines.map (·.kind)).Perm ((fares.map (Fare.ticket cs)).map fun t => cs.lower t.kind) := by
    refine kinds_perm ha.priced.nodup hshares.length_eq hpriced ?_
    rw [List.map_map]
    exact hplain.spelled.trans (travellerCounts_types htypes)
  refine ⟨flight, _, hflight, hl.pricing_saved hsource ha.priced.object, ⟨_, htotal, hgross⟩, ?_, ?_, ?_⟩
  · intro kind
    rw [hfares.isSome_iff, hpassengers.isSome_iff, shown_kinds hshares]
    exact hperm.symm.mem_iff
  · intro kind hkind
    rw [hpassengers.isSome_iff] at hkind
    obtain ⟨l', hl', rfl⟩ := List.mem_map.mp hkind
    obtain ⟨f', hf', hfl'⟩ := exists_left hlined hl'
    obtain ⟨t, ht, hkindEq⟩ := List.mem_map.mp (hperm.mem_iff.mp hkind)
    obtain ⟨f, hf, rfl⟩ := List.mem_map.mp ht
    obtain ⟨l, hl, hfl, hshown⟩ := mem_shown hlined hf
    -- The kind of the price is the type of one row, and as the flight names it the type of another.
    have halike := hplain.alike f hf f' hf' (hkindEq.trans hfl'.kind)
    have hcount : f.count = l.count := hfl.shares.count
    have hcount' : f'.count = l'.count := hfl'.shares.count
    have hface : l.face = l'.face := by
      rw [← f.gross_ticket cs, ← f'.gross_ticket cs, hfl.shares.gross, hfl'.shares.gross, hcount, hcount'] at halike
      have hpos : (0 : Int) < l.count := Int.natCast_pos.mpr (ha.counts l hl).1
      have hpos' : (0 : Int) < l'.count := Int.natCast_pos.mpr (ha.counts l' hl').1
      have hproduct : (l.count * l'.count : Int) * l.face = l.count * l'.count * l'.face := by
        rw [Int.mul_right_comm, halike]
        ring
      exact Int.eq_of_mul_eq_mul_left (Int.mul_pos hpos hpos').ne' hproduct
    have hgrossEq : ((f.ticket cs).line cs l).gross = l'.face := by
      show l.gross = l'.face
      rw [← hface, Line.face, huntaxed l hl, Int.add_zero]
    refine ⟨(l'.face : ℚ) / 100, ?_, ?_⟩
    · have hreads := (hholds.priced _ hshown).total.reads
      rw [hgrossEq] at hreads
      rw [hflightEq, flightOf_fares, ← hkindEq]
      exact hreads
    · exact heach l' hl'
  · intro report hreport
    obtain ⟨flight', hflight', hprice⟩ := report_price hreport
    obtain rfl : flight' = flight := Option.some.inj (hflight'.symm.trans hflight)
    rw [hprice]
    exact ⟨_, htotal, hgross⟩

/-- Only these do. -/
theorem plain_of_agrees (hd : Cents d) (hw : Writes w) (ha : Accepted d cs b.grossMinor b.data rows lines)
    (hl : Loaded cs w b r refs state travellers legs i) (hsource : b.source ≠ "MANUAL")
    (hparty : (b.data.field "passengers").field "travellers" = .arr travellers)
    (hnamed : (∀ leg ∈ legs, NamedLeg leg) ↔ Named (b.data.field "itinerary"))
    {flight pricing : Value} (h : Agrees d cs i flight pricing) :
    ∃ fares, Plain cs b.data rows fares travellers := by
  have hrows : (b.shownData r).field "supplierFares" = .arr rows := by
    rw [shownData_field (by decide), ha.priced.fares]
  cases hout : buildFares cs w (b.shownData r) b.grossMinor (travellerCounts travellers) with
  | none =>
    have hnone : i.flight d cs = none := hl.flight_none hout
    rw [h.flown] at hnone
    cases hnone
  | some out =>
    obtain ⟨ts, hts, hrowsOf, htally⟩ := buildFares_ok hrows ha.priced.nonempty hout
    obtain ⟨fares, hread, rfl⟩ := fares_of_tickets ha.priced.quoted hts
    have hspelled : tally (fares.map fun f => (cs.uppercase f.type, f.count)) = travellerCounts travellers := by
      rw [← htally, List.map_map]
      rfl
    obtain ⟨s, hbuild, hs, hholds⟩ := ha.rows_shown (r := r) hd hw hread hparty hspelled
    have hlined := fares_lined hd ha.priced.quoted hread
    have hshares := lined_shares hlined
    obtain ⟨hsome, hflights⟩ := hl.flight_of hbuild (receipt_ne hread ha.priced.nonempty) hs
    have hflightEq := hflights flight h.flown
    obtain ⟨hgross, hpassengers, heach⟩ := ha.pricing_fields
    obtain rfl : _ = pricing := Except.ok.inj ((hl.pricing_saved hsource ha.priced.object).symm.trans h.priced)
    -- the flight adds up base and taxes, the pricing adds up the faces: where they agree there is no ait
    have hdue : due lines = faceTotal lines := by
      have hshows := (hd.shows hholds.total).reads
      rw [shown_due hshares] at hshows
      have htotal := h.total
      rw [hflightEq, flightOf_total] at htotal
      exact htotal.cents hshows hgross
    have hnonneg : ∀ l ∈ lines, (0 : Int) ≤ l.count * l.ait := by
      intro l hl
      obtain ⟨t, -, ht⟩ := exists_left hshares hl
      rw [← ht.ait]
      exact ht.bounds.2.2.1
    have huntaxed : ∀ l ∈ lines, l.ait = 0 := by
      intro l hl
      have hle : (l.count : Int) * l.ait ≤ (lines.map fun l => (l.count : Int) * l.ait).sum := by
        apply List.single_le_sum
        · intro n hn
          obtain ⟨l', hl', rfl⟩ := List.mem_map.mp hn
          exact hnonneg l' hl'
        · exact List.mem_map_of_mem hl
      have hsum := faceTotal_eq lines
      have hzero : (l.count : Int) * l.ait = 0 := by
        have hlow := hnonneg l hl
        omega
      exact (Int.mul_eq_zero.mp hzero).resolve_left (Int.natCast_ne_zero.mpr (ha.counts l hl).1.ne')
    refine ⟨fares, ha.priced.fares, hread, ?_, hparty, hspelled, ?_, ?_⟩
    · intro f hf
      obtain ⟨l, hl, hfl⟩ := exists_right hlined hf
      have hait : f.ait = l.count * l.ait := hfl.shares.ait
      rw [hait, huntaxed l hl, Int.mul_zero]
    -- two fares of one kind both cost what the pricing shows of the kind
    · intro f hf f' hf' hmeet
      obtain ⟨l', hl', hfl'⟩ := exists_right hlined hf'
      obtain ⟨l, hl, hfl, hshown⟩ := mem_shown hlined hf
      have hface : l.face = l'.face := by
        have hkind : ((pick (b.data.field "rustPricing") pricingKeys).field "passengers" |>.get? l'.kind).isSome := by
          rw [hpassengers.isSome_iff]
          exact List.mem_map_of_mem hl'
        have hamount := h.each l'.kind hkind
        have hkindEq : cs.lower (f.ticket cs).kind = l'.kind := hmeet.trans hfl'.kind.symm
        have hreads := (hholds.priced _ hshown).total.reads
        rw [hflightEq, flightOf_fares, ← hkindEq] at hamount
        have hgrossEq : ((f.ticket cs).line cs l).gross = l'.face :=
          hamount.cents hreads (hkindEq ▸ heach l' hl')
        rw [← hgrossEq]
        show l.gross + l.ait = l.gross
        rw [huntaxed l hl, Int.add_zero]
      have hcount : f.count = l.count := hfl.shares.count
      have hcount' : f'.count = l'.count := hfl'.shares.count
      rw [← f.gross_ticket cs, ← f'.gross_ticket cs, hfl.shares.gross, hfl'.shares.gross, hcount, hcount', hface]
      ring
    · rw [← hnamed, ← hsome, h.flown]
      rfl

/-- A priced import that is read by a machine client, in any run and after any number of refreshes, shows one
gross if and only if its rows are plain. -/
theorem imports_show_one_gross (hd : Cents d) (hw : Writes w) {desk : Desk} {s₀ db : Db}
    {t : List (Transition Db Event)} (hinit : (machine desk).init s₀) (hrun : (machine desk).Run s₀ t db)
    (hprices : PricedRun d cs t) {b : ImportBooking} (hb : b ∈ db.imports) (hsource : PricedSource b.source)
    {r : Reading} (hread : Decorated (b.data.field "itinerary") (r.itinerary.getD (b.data.field "itinerary")))
    (refs : References) (state : Value) :
    ∃ i, load cs w b r refs state = .ok i ∧
      ((∃ flight pricing, Agrees d cs i flight pricing) ↔
        ∃ rows fares travellers, Plain cs b.data rows fares travellers) := by
  obtain ⟨rows, lines, ha⟩ := (run_sound hd hinit hrun hprices).imports b hb hsource
  obtain ⟨travellers, hparty⟩ := ha.travellers
  obtain ⟨⟨legs, hlegs⟩, hnamed⟩ := hread.named ha.legs
  have hloaded : ∃ i, load cs w b r refs state = .ok i ∧ Loaded cs w b r refs state travellers legs i :=
    load_ok hparty (isObject_of_fares ha.priced.fares) hlegs
  obtain ⟨i, hload, hl⟩ := hloaded
  have hsaved : b.source ≠ "MANUAL" := by
    rcases hsource with h | h <;> rw [h] <;> decide
  have hnames : (∀ leg ∈ legs, NamedLeg leg) ↔ Named (b.data.field "itinerary") := by
    rw [← hnamed]
    constructor
    · intro hall legs' hlegs'
      obtain rfl : legs = legs' := Value.arr.inj (hlegs.symm.trans hlegs')
      exact hall
    · exact fun hall => hall legs hlegs
  refine ⟨i, hload, ?_, ?_⟩
  · rintro ⟨flight, pricing, hagrees⟩
    obtain ⟨fares, hplain⟩ := plain_of_agrees hd hw ha hl hsaved hparty hnames hagrees
    exact ⟨rows, fares, travellers, hplain⟩
  · rintro ⟨rows', fares, travellers', hplain⟩
    exact agrees_of_plain hd hw ha hl hsaved hparty hnames hplain

/-! ## A sample -/

/-- The texts and quotients of the sample, with a text for numbers of any scale. -/
def centDecimals : Decimals where
  display a := if a.scale ≤ bigintMax then written a else twoPlaces a.minor
  fixed := exactDecimals.fixed
  quotient := exactDecimals.quotient

theorem centDecimals_cents : Cents centDecimals where
  reads a n h := by
    show ∃ x, BigDecimal.parse (if a.scale ≤ bigintMax then written a else twoPlaces a.minor) = some x ∧ _
    split
    · rename_i hscale
      obtain ⟨x, hx, hvalue, -⟩ := parse_written hscale
      exact ⟨x, hx, hvalue⟩
    · rw [minor_of_toRat h, parse_twoPlaces]
      exact ⟨_, rfl, (toRat_minor n).trans h.symm⟩
  rounds a n h := by
    refine ⟨⟨n, 2⟩, ?_, toRat_minor n⟩
    show BigDecimal.parse (twoPlaces a.minor) = _
    rw [minor_of_toRat h, parse_twoPlaces]
  divides a n m hpos _ _ h := by
    have hshare : a.toRat = n * ((m : Int) / 100 : ℚ) := by
      rw [h]
      push_cast
      ring
    show (exactDecimals.quotient a (ofInt n)).toRat = _
    rw [exactDecimals_quotient hpos hshare, toRat_minor, Int.cast_natCast]
  rest a n m hpos _ _ h hrest := by
    refine exactDecimals_rest fun units hunits => hrest ?_
    rw [h, ← mul_div_assoc, div_left_inj' (by norm_num)] at hunits
    exact Int.natCast_dvd_natCast.mp (Dvd.intro units (by exact_mod_cast hunits.symm))

/-- Numbers with their cents. -/
def centWriter : Writer := ⟨twoPlaces, toString, fun _ _ => ([], .null)⟩

theorem centWriter_writes : Writes centWriter :=
  fun n _ _ => ⟨⟨n, 2⟩, parse_twoPlaces n, toRat_minor n⟩

/-- A desk that reads no times. -/
def plainDesk : Desk := ⟨⟨fun _ => 0, id, id, id⟩, fun _ => none⟩

/-- An agency that is charged what the fare is. -/
def sampleTariff : Tariff where
  ownerSubject _ := .ok "agency"
  client _ := some ⟨1, "basic", 0⟩
  rules _ _ := [⟨2, 1, "b2b", none, none, none, none, "fixed", "0", "BDT"⟩]

def sampleOffice : Surroundings where
  now := 0
  clock := 0
  principal _ := .ok ⟨3, "agency", "b2b", some "AGENCY"⟩
  subjectOf _ := some "agency"
  price := price centDecimals asciiCasing sampleTariff
  flights := []
  natives := []
  reply _ := .ok ()

def sampleTraveller : Value :=
  .object [("passengerType", .str "ADT"), ("firstName", .str "A"), ("lastName", .str "B")]

def sampleSegment : Value :=
  .object [("from", .str "DAC"), ("to", .str "CXB"), ("departure", .str "10:00"), ("arrival", .str "11:00"),
    ("airlineCode", .str "BS"), ("flightNumber", .str "141")]

def sampleLeg : Value :=
  .object [("from", .str "DAC"), ("to", .str "CXB"), ("segments", .arr [sampleSegment])]

def sampleItinerary : Value := .object [("carrierCode", .str "BS"), ("legs", .arr [sampleLeg])]

/-- The row of one adult. -/
def sampleSupplierRow (ait gross : Int) : Value :=
  .object [("passengerType", .str "ADT"), ("count", .ofInt 1), ("basePrice", .ofInt 100), ("taxes", .ofInt 20),
    ("serviceCharge", .ofInt 0), ("ait", .ofInt ait), ("supplierTotalPrice", .ofInt gross)]

def sampleData (ait gross : Int) : Value :=
  .object [("supplierReference", .str "USB1"), ("pnr", .str "ABC123"), ("airlinesPnr", .arr [.str "ABC123"]),
    ("currency", .str "BDT"), ("lifecycleStatus", .str "on-hold"),
    ("passengers", .object [("travellers", .arr [sampleTraveller])]), ("itinerary", sampleItinerary),
    ("supplierFares", .arr [sampleSupplierRow ait gross]), ("supplierGross", .ofInt gross),
    ("supplierPayable", .ofInt gross)]

def superadmin : Principal := ⟨4, "root", "superadmin", none⟩

def samplePrepare (ait gross : Int) : Prepare :=
  ⟨"agency", "IMP_EXP", "US_BANGLA", sampleData ait gross, gross * 100, gross * 100, gross * 100, false⟩

def sampleDraw : Draw := ⟨5, 6, ⟨7, 0⟩, ⟨8, 0⟩⟩


def sampleRun (ait gross : Int) : Except ApiError Db := do
  let db ← step plainDesk .empty (.command sampleOffice superadmin (.prepare (samplePrepare ait gross)) sampleDraw)
  step plainDesk db (.command sampleOffice superadmin (.importBooking ⟨5, 9, false, none⟩) sampleDraw)


/-- The steps of the sample. -/
theorem sampleRun_priced {ait gross : Int} {db : Db} (h : sampleRun ait gross = .ok db) :
    ∃ t, (machine plainDesk).Run .empty t db ∧ PricedRun centDecimals asciiCasing t := by
  simp only [sampleRun, bind_eq_ok] at h
  obtain ⟨prepared, hprepare, himport⟩ := h
  refine ⟨_, (((Machine.Run.nil (M := machine plainDesk) _).snoc hprepare).snoc himport), ?_⟩
  intro r hr env actor command draw hlabel
  have henv : env = sampleOffice := by
    rcases List.mem_append.mp hr with hr | hr
    · rw [List.nil_append, List.mem_singleton] at hr
      rw [hr] at hlabel
      exact (Event.command.inj hlabel).1.symm
    · rw [List.mem_singleton] at hr
      rw [hr] at hlabel
      exact (Event.command.inj hlabel).1.symm
  exact ⟨sampleTariff, by rw [henv]; rfl⟩

/-- The row as it was saved. -/
def sampleReading : Reading := ⟨none, .null, .null, .null, .null, .null⟩

/-- The gross that is priced has the tax that is paid in advance, the flight has not. -/
theorem flight_lacks_ait : ∃ t db b i flight pricing, (machine plainDesk).Run .empty t db ∧
    PricedRun centDecimals asciiCasing t ∧ b ∈ db.imports ∧ PricedSource b.source ∧
    load asciiCasing centWriter b sampleReading ⟨10, 11, 12, 13⟩ .null = .ok i ∧
    i.flight centDecimals asciiCasing = some flight ∧ i.pricing centDecimals asciiCasing = .ok pricing ∧
    flight.field "totalPrice" = .num "120.00" ∧ pricing.field "gross" = .str "123.00" ∧
    ¬ ∃ flight pricing, Agrees centDecimals asciiCasing i flight pricing := by
  have hsample : ((sampleRun 3 123).bind fun db => db.imports.mapM fun b =>
      (load asciiCasing centWriter b sampleReading ⟨10, 11, 12, 13⟩ .null).bind fun i =>
        (i.pricing centDecimals asciiCasing).map fun pricing =>
          (b.source, (i.flight centDecimals asciiCasing).map (·.field "totalPrice"), pricing.field "gross")) =
      .ok [("IMP_EXP", some (.num "120.00"), .str "123.00")] := by decide +kernel
  obtain ⟨db, hdb, himports⟩ := bind_eq_ok.mp hsample
  obtain ⟨t, hrun, hprices⟩ := sampleRun_priced hdb
  obtain ⟨b, hb, hbooking⟩ := exists_left (mapM_eq_ok.mp himports) List.mem_cons_self
  obtain ⟨i, hload, hread⟩ := bind_eq_ok.mp hbooking
  obtain ⟨pricing, hpricing, hshown⟩ := map_eq_ok.mp hread
  obtain ⟨hsource, hshown⟩ := Prod.mk.inj hshown
  obtain ⟨hflown, hgross⟩ := Prod.mk.inj hshown
  obtain ⟨flight, hflight, htotal⟩ := Option.map_eq_some_iff.mp hflown
  refine ⟨t, db, b, i, flight, pricing, hrun, hprices, hb, .inr hsource, hload, hflight, hpricing, htotal, hgross, ?_⟩
  rintro ⟨flight', pricing', hagrees⟩
  obtain rfl : flight = flight' := Option.some.inj (hflight.symm.trans hagrees.flown)
  obtain rfl : pricing = pricing' := Except.ok.inj (hpricing.symm.trans hagrees.priced)
  have hsame := hagrees.total
  rw [htotal, hgross] at hsame
  obtain ⟨q, ⟨x, hx, hxq⟩, ⟨y, hy, hyq⟩⟩ := hsame
  have hx' : decimal (.num "120.00") = some ⟨12000, 2⟩ := by decide +kernel
  have hy' : decimal (.str "123.00") = some ⟨12300, 2⟩ := by decide +kernel
  have heq : toRat ⟨12000, 2⟩ = toRat ⟨12300, 2⟩ := by
    rw [Option.some.inj (hx'.symm.trans hx), Option.some.inj (hy'.symm.trans hy), hxq, hyq]
  rw [toRat_minor, toRat_minor] at heq
  norm_num at heq

theorem sampleItinerary_named : Named sampleItinerary := by
  intro legs hlegs leg hleg segments hsegments segment hsegment
  have hlegs' : sampleItinerary.field "legs" = .arr [sampleLeg] := by decide +kernel
  have hsegments' : sampleLeg.field "segments" = .arr [sampleSegment] := by decide +kernel
  obtain rfl := Value.arr.inj (hlegs'.symm.trans hlegs)
  rw [List.mem_singleton.mp hleg] at hsegments
  obtain rfl := Value.arr.inj (hsegments'.symm.trans hsegments)
  rw [List.mem_singleton.mp hsegment]
  exact (checkSegment_isSome sampleSegment).mp (by decide +kernel)

theorem imports_show_one_gross_plain : ∃ t db b i flight pricing, (machine plainDesk).Run .empty t db ∧
    PricedRun centDecimals asciiCasing t ∧ b ∈ db.imports ∧ PricedSource b.source ∧
    load asciiCasing centWriter b sampleReading ⟨10, 11, 12, 13⟩ .null = .ok i ∧
    Agrees centDecimals asciiCasing i flight pricing := by
  have hsample : ((sampleRun 0 120).map fun db => db.imports.map fun b => (b.source, b.data.field "supplierFares",
      (b.data.field "passengers").field "travellers", b.data.field "itinerary")) =
      .ok [("IMP_EXP", .arr [sampleSupplierRow 0 120], .arr [sampleTraveller], sampleItinerary)] := by decide +kernel
  obtain ⟨db, hdb, himports⟩ := map_eq_ok.mp hsample
  obtain ⟨t, hrun, hprices⟩ := sampleRun_priced hdb
  obtain ⟨b, hb, hbooking⟩ := List.mem_map.mp (himports ▸ List.mem_cons_self)
  obtain ⟨hsource, hbooking⟩ := Prod.mk.inj hbooking
  obtain ⟨hfares, hbooking⟩ := Prod.mk.inj hbooking
  obtain ⟨hparty, hitinerary⟩ := Prod.mk.inj hbooking
  have hplain : Plain asciiCasing b.data [sampleSupplierRow 0 120] [⟨"ADT", 1, 10000, 2000, 0, 0⟩]
      [sampleTraveller] := by
    refine ⟨hfares, .cons ?_ .nil, by decide, hparty, by decide +kernel, ?_, hitinerary ▸ sampleItinerary_named⟩
    · constructor <;> decide +kernel
    · intro f hf f' hf' _
      rw [List.mem_singleton.mp hf, List.mem_singleton.mp hf']
  obtain ⟨i, hload, hiff⟩ := imports_show_one_gross centDecimals_cents centWriter_writes rfl hrun hprices hb
    (.inr hsource) (r := sampleReading) .refl ⟨10, 11, 12, 13⟩ .null
  obtain ⟨flight, pricing, hagrees⟩ := hiff.mpr ⟨_, _, _, hplain⟩
  exact ⟨t, db, b, i, flight, pricing, hrun, hprices, hb, .inr hsource, hload, hagrees⟩

end ShaponTravels.Imports
