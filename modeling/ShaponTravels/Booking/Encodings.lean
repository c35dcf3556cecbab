import ShaponTravels.Booking.References
import ShaponTravels.Booking.Report
import ShaponTravels.Booking.Tickets
import ShaponTravels.Pricing.RoundTrip

/-!
# Encodings — ticket numbers as a text and as a list

A report may give the numbers of a passenger as a comma-separated text or as a list.  `numbers` reads
both, `copy_fields` keeps scalars only, and `recover` reads what `copy_fields` has kept.
-/

namespace ShaponTravels.Booking.Report

open Library

variable {r : Reader} {source : Source} {q : Quote} {id issue : Uuid}
  {payload request body body' evidence row row' v v' : Value} {booked rows : List Value}
  {issued : Option (List Value)} {s s' t : Rows}

/-- The set `numbers` returns, in the order of a `BTreeSet`. -/
def numberSet (v : Value) : Option (List String) :=
  (ticketNumbers v).map fun nums => nums.mergeSort fun a b => decide (a ≤ b)

/-- No row gives its numbers as a list. -/
def TextNumbers (body : Value) : Prop :=
  ∀ rows, body.field "passengerInfo" = .arr rows →
    ∀ row ∈ rows, (row.field "ticketNumbers").asArray? = none

/-- Every row that is shown has the numbers of the row it is shown for. -/
def Carried (body projected : Value) : Prop :=
  ∃ rows shown, body.field "passengerInfo" = .arr rows ∧
    projected.field "passengerInfo" = .arr shown ∧
    List.Forall₂ (fun row visible => (numberSet (row.field "ticketNumbers")).isSome = true ∧
      numberSet (visible.field "ticketNumbers") = numberSet (row.field "ticketNumbers")) rows shown

/-! ## Rows -/

/-- What the loop asks of a row and shows of it. -/
structure Taken (r : Reader) (source : Source) (q : Quote) (payload : Value) (booked : List Value)
    (issued : Option (List Value)) (s t : Rows) (row expected : Value) (i : Nat) (kind : String)
    (nums : List String) (visible : Value) : Prop where
  one : candidates r.casing booked (rowPassenger row) source.supplierId true = [(expected, i)]
  unseen : i ∉ s.seen
  named : (expected.field "passengerType").asStr? = some kind
  fare : fareMatches row (((q.original.field "item1").field "passengerFares").field
    (r.casing.lower kind)) = some true
  original : row.field "isReissued" ≠ .bool true
  references : absentOrEqual row "pnr" (payload.field "PNR") = true ∧
    absentOrEqual row "uniqueTransID" (payload.field "UniqueTransID") = true ∧
    absentOrEqual row "currencyName" ((q.original.field "item1").field "currency") = true
  count : ((row.get? "passengerCount").all fun count => decide (count.asU64? = some 1)) = true
  numbers : ticketNumbers (row.field "ticketNumbers") = some nums
  receipt : issued.isNone = true ∨ ((issued.getD []).countP fun t =>
    (ticketNumbers (t.field "ticketNumbers")).any (sameNumbers nums) &&
      passengerMatches r.casing expected (t.field "passengerInfo") source.supplierId true) = 1
  untaken : (nums.all fun n => decide (n ∉ s.usedTickets)) = true
  shown : r.sellingFare (copyFields row publicKeys)
    (((q.selling.field "item1").field "passengerFares").field (r.casing.lower kind)) = some visible
  state : t = ⟨i :: s.seen, nums ++ s.usedTickets, s.passengers ++ [visible]⟩

theorem row_eq_some : r.row source q payload booked issued s row = some t ↔
    ∃ expected i kind nums visible,
      Taken r source q payload booked issued s t row expected i kind nums visible := by
  unfold Reader.row
  constructor
  · intro h
    split at h
    · rename_i expected i hone
      simp only [bind_eq_some, guard_eq_some, exists_const] at h
      obtain ⟨hseen, kind, hkind, matched, hfare, hmatched, horiginal, hrefs, hcount, nums, hnums,
        hreceipt, hfresh, visible, hvisible, heq⟩ := h
      rw [hmatched] at hfare
      exact ⟨expected, i, kind, nums, visible, hone, hseen, hkind, hfare, horiginal, hrefs, hcount,
        hnums, hreceipt, hfresh, hvisible, (Option.some.inj heq).symm⟩
    · cases h
  · rintro ⟨expected, i, kind, nums, visible, h⟩
    rw [h.one]
    simp only [bind_eq_some, guard_eq_some, exists_const]
    exact ⟨h.unseen, kind, h.named, true, h.fare, rfl, h.original, h.references, h.count, nums,
      h.numbers, h.receipt, h.untaken, visible, h.shown, congrArg some h.state.symm⟩

/-- What is shown under `ticketNumbers` is what the row has there, unless that is a list. -/
theorem field_shown {fare visible : Value}
    (h : r.sellingFare (copyFields row publicKeys) fare = some visible) :
    visible.field "ticketNumbers" = ((row.get? "ticketNumbers").filter isScalar).getD .null := by
  rw [field_sellingFare h (by decide), Value.field, get?_copyFields (by decide)]

/-- A row whose numbers were read shows them just when they are no list. -/
theorem numberSet_shown {nums : List String} {visible : Value}
    (hnums : ticketNumbers (row.field "ticketNumbers") = some nums)
    (hvisible : visible.field "ticketNumbers" =
      ((row.get? "ticketNumbers").filter isScalar).getD .null) :
    numberSet (visible.field "ticketNumbers") =
      if (row.field "ticketNumbers").asArray?.isSome then none
      else numberSet (row.field "ticketNumbers") := by
  rw [hvisible]
  rw [Value.field] at hnums ⊢
  cases hrow : row.get? "ticketNumbers" with
  | none =>
    rw [hrow] at hnums
    cases hnums
  | some v =>
    rw [hrow] at hnums
    cases v with
    | str text => rfl
    | arr values => rfl
    | _ => cases hnums

/-- A row of a report and what is shown of it. -/
structure ShownRow (row visible : Value) : Prop where
  read : (numberSet (row.field "ticketNumbers")).isSome = true
  shown : numberSet (visible.field "ticketNumbers") =
    if (row.field "ticketNumbers").asArray?.isSome then none
    else numberSet (row.field "ticketNumbers")

theorem rows_shownRow (h : rows.foldlM (r.row source q payload booked issued) s = some t) :
    ∃ shown, t.passengers = s.passengers ++ shown ∧ List.Forall₂ ShownRow rows shown := by
  induction rows generalizing s with
  | nil =>
    rw [List.foldlM_nil] at h
    cases h
    exact ⟨[], (List.append_nil _).symm, .nil⟩
  | cons row rows ih =>
    simp only [List.foldlM_cons, bind_eq_some] at h
    obtain ⟨middle, hfirst, hrest⟩ := h
    obtain ⟨expected, i, kind, nums, visible, htaken⟩ := row_eq_some.mp hfirst
    obtain ⟨shown, hall, hrows⟩ := ih hrest
    refine ⟨visible :: shown, ?_, .cons ⟨?_, ?_⟩ hrows⟩
    · rw [hall, htaken.state]
      simp
    · rw [numberSet, htaken.numbers]
      rfl
    · exact numberSet_shown htaken.numbers (field_shown htaken.shown)

theorem project_shownRow {projected : Value} (h : r.project body source q id = some projected) :
    ∃ rows shown, body.field "passengerInfo" = .arr rows ∧
      projected.field "passengerInfo" = .arr shown ∧ List.Forall₂ ShownRow rows shown := by
  simp only [Reader.project, bind_eq_some, guard_eq_some, exists_const,
    Value.asArray?_eq_some] at h
  obtain ⟨payload, -, -, -, _, -, -, rows, hrows, booked, -, issued, -, -, s, hs, middle, hmiddle,
    hprojected⟩ := h
  obtain ⟨shown, hshown, hall⟩ := rows_shownRow hs
  rw [List.nil_append] at hshown
  refine ⟨rows, shown, hrows, ?_, hall⟩
  rw [field_addPart_ne hprojected (by decide), field_addPart_ne hmiddle (by decide)]
  simp [Value.field, Value.get?_object, hshown]

/-- The numbers of the rows are shown just when none of them is a list. -/
theorem shownRows_iff {shown : List Value} (h : List.Forall₂ ShownRow rows shown) :
    List.Forall₂ (fun row visible => (numberSet (row.field "ticketNumbers")).isSome = true ∧
      numberSet (visible.field "ticketNumbers") = numberSet (row.field "ticketNumbers")) rows shown ↔
    ∀ row ∈ rows, (row.field "ticketNumbers").asArray? = none := by
  induction h with
  | nil => exact ⟨fun _ _ hrow => absurd hrow List.not_mem_nil, fun _ => .nil⟩
  | @cons row visible rows shown hrow _ ih =>
    rw [List.forall₂_cons, ih, List.forall_mem_cons]
    refine and_congr_left fun _ => ?_
    constructor
    · rintro ⟨hread, hkept⟩
      rw [hrow.shown] at hkept
      cases hlist : (row.field "ticketNumbers").asArray? with
      | none => rfl
      | some values =>
        rw [hlist] at hkept
        rw [← hkept] at hread
        cases hread
    · intro htext
      refine ⟨hrow.read, ?_⟩
      rw [hrow.shown, htext]
      rfl

/-- An accepted report shows the numbers of every row just when none of them is a list. -/
theorem carried_iff {projected : Value} (h : r.project body source q id = some projected) :
    Carried body projected ↔ TextNumbers body := by
  obtain ⟨rows, shown, hrows, hshown, hall⟩ := project_shownRow h
  constructor
  · rintro ⟨rows', shown', hrows', hshown', hcarried⟩ rows'' hrows''
    obtain rfl := Value.arr.inj (hrows.symm.trans hrows')
    obtain rfl := Value.arr.inj (hrows.symm.trans hrows'')
    obtain rfl := Value.arr.inj (hshown.symm.trans hshown')
    exact (shownRows_iff hall).mp hcarried
  · intro htext
    exact ⟨rows, shown, hrows, hshown, (shownRows_iff hall).mpr (htext rows hrows)⟩

/-! ## Reports in another encoding -/

/-- Two rows that differ in how they write their numbers. -/
structure SameRow (row row' : Value) : Prop where
  fields : AgreeOff "ticketNumbers" row row'
  numbers : numberSet (row.field "ticketNumbers") = numberSet (row'.field "ticketNumbers")

theorem SameRow.symm (h : SameRow row row') : SameRow row' row := ⟨h.fields.symm, h.numbers.symm⟩

/-- Two reports that differ in how their rows write the numbers. -/
structure Reencodes (body body' : Value) : Prop where
  fields : AgreeOff "passengerInfo" body body'
  rows : ∃ rows rows', body.field "passengerInfo" = .arr rows ∧
    body'.field "passengerInfo" = .arr rows' ∧ List.Forall₂ SameRow rows rows'

theorem Reencodes.symm (h : Reencodes body body') : Reencodes body' body := by
  obtain ⟨rows, rows', hrows, hrows', hall⟩ := h.rows
  exact ⟨h.fields.symm, rows', rows, hrows', hrows, (hall.imp fun _ _ hrow => hrow.symm).flip⟩

theorem numberSet_perm {v v' : Value} {nums : List String} (h : numberSet v = numberSet v')
    (hv : ticketNumbers v = some nums) : ∃ nums', ticketNumbers v' = some nums' ∧ nums.Perm nums' := by
  rw [numberSet, hv, Option.map_some] at h
  obtain ⟨nums', hnums', hsorted⟩ := Option.map_eq_some_iff.mp h.symm
  refine ⟨nums', hnums', ?_⟩
  exact (List.mergeSort_perm nums _).symm.trans (hsorted ▸ List.mergeSort_perm nums' _)

theorem get?_copyFields_of_notMem {keys : List String} {key : String} (h : key ∉ keys) :
    (copyFields v keys).get? key = none := by
  rw [copyFields, Value.get?_object, Option.map_eq_none_iff, List.find?_eq_none]
  intro f hf
  obtain ⟨k, hk, hfield⟩ := List.mem_filterMap.mp (List.mem_reverse.mp hf)
  obtain ⟨x, -, rfl⟩ := Option.map_eq_some_iff.mp hfield
  have hne : k ≠ key := fun heq => h (heq ▸ hk)
  simpa using hne

theorem copyFields_agree {key : String} (h : AgreeOff key v v') (keys : List String) :
    AgreeOff key (copyFields v keys) (copyFields v' keys) := by
  refine ⟨rfl, rfl, ?_⟩
  intro k hk
  by_cases hmem : k ∈ keys
  · rw [get?_copyFields hmem, get?_copyFields hmem, h.get? k hk]
  · rw [get?_copyFields_of_notMem hmem, get?_copyFields_of_notMem hmem]

theorem sellingFare_agree {key : String} {fare visible : Value} (h : AgreeOff key v v')
    (hkey : key ∉ ["totalPrice", "discount", "discountPrice"])
    (hv : r.sellingFare v fare = some visible) :
    ∃ visible', r.sellingFare v' fare = some visible' ∧ AgreeOff key visible visible' := by
  simp only [List.mem_cons, List.not_mem_nil, or_false, not_or] at hkey
  simp only [Reader.sellingFare, bind_eq_some] at hv ⊢
  obtain ⟨discount, hdiscount, heq⟩ := hv
  obtain rfl := Option.some.inj heq
  refine ⟨_, ⟨discount, hdiscount, rfl⟩, ?_⟩
  exact ((h.setField "totalPrice" _).modifyField (Ne.symm hkey.2.1) _).modifyField
    (Ne.symm hkey.2.2) _

theorem fareMatches_agree {fare : Value} (h : AgreeOff "ticketNumbers" row row') :
    fareMatches row fare = fareMatches row' fare := by
  simp only [fareMatches, pricesMatch, h.field (show "basePrice" ≠ "ticketNumbers" by decide),
    h.field (show "tax" ≠ "ticketNumbers" by decide), h.field (show "ait" ≠ "ticketNumbers" by decide),
    h.field (show "totalPrice" ≠ "ticketNumbers" by decide),
    h.get? "discount" (by decide)]

/-- The variables of the loop over two encodings. -/
structure SameRows (s s' : Rows) : Prop where
  seen : s.seen = s'.seen
  used : ∀ n, n ∈ s.usedTickets ↔ n ∈ s'.usedTickets
  passengers : List.Forall₂ SameRow s.passengers s'.passengers

theorem sameNumbers_congr {xs xs' ys : List String} (h : xs.Perm xs') :
    sameNumbers xs ys = sameNumbers xs' ys := by
  have hmem : ∀ n, n ∈ xs ↔ n ∈ xs' := fun n => h.mem_iff
  rw [sameNumbers, sameNumbers, h.all_eq]
  simp only [hmem]

theorem row_reencoded (hrow : SameRow row row') (hs : SameRows s s')
    (htext : (row.field "ticketNumbers").asArray? = none)
    (htext' : (row'.field "ticketNumbers").asArray? = none)
    (h : r.row source q payload booked issued s row = some t) :
    ∃ t', r.row source q payload booked issued s' row' = some t' ∧ SameRows t t' := by
  obtain ⟨expected, i, kind, nums, visible, ht⟩ := row_eq_some.mp h
  obtain ⟨nums', hnums', hperm⟩ := numberSet_perm hrow.numbers ht.numbers
  have hfield : ∀ k, k ≠ "ticketNumbers" → row.field k = row'.field k :=
    fun k hk => hrow.fields.field hk
  have hpassenger : rowPassenger row = rowPassenger row' := by
    simp only [rowPassenger, hfield "first" (by decide), hfield "last" (by decide),
      hfield "middle" (by decide), hfield "passengerType" (by decide)]
  have hsame : sameNumbers nums = sameNumbers nums' := funext fun _ => sameNumbers_congr hperm
  obtain ⟨visible', hvisible', hagree⟩ :=
    sellingFare_agree (copyFields_agree hrow.fields publicKeys) (by decide) ht.shown
  refine ⟨⟨i :: s'.seen, nums' ++ s'.usedTickets, s'.passengers ++ [visible']⟩,
    row_eq_some.mpr ⟨expected, i, kind, nums', visible', ?_⟩, ?_⟩
  · constructor
    case one => exact hpassenger ▸ ht.one
    case unseen => exact hs.seen ▸ ht.unseen
    case named => exact ht.named
    case fare => exact fareMatches_agree hrow.fields ▸ ht.fare
    case original => exact hfield "isReissued" (by decide) ▸ ht.original
    case references =>
      have hrefs := ht.references
      simp only [absentOrEqual, hfield "pnr" (by decide), hfield "uniqueTransID" (by decide),
        hfield "currencyName" (by decide)] at hrefs ⊢
      exact hrefs
    case count => exact hrow.fields.get? "passengerCount" (by decide) ▸ ht.count
    case numbers => exact hnums'
    case receipt => exact hsame ▸ ht.receipt
    case untaken =>
      have hfresh := ht.untaken
      rw [List.all_eq_true] at hfresh ⊢
      intro n hn
      have hold := hfresh n (hperm.mem_iff.mpr hn)
      rw [decide_eq_true_eq] at hold ⊢
      exact fun hused => hold ((hs.used n).mpr hused)
    case shown => exact hvisible'
    case state => rfl
  · rw [ht.state]
    refine ⟨congrArg (i :: ·) hs.seen, ?_, ?_⟩
    · intro n
      rw [List.mem_append, List.mem_append, hperm.mem_iff, hs.used n]
    · refine List.rel_append hs.passengers (.cons ⟨hagree, ?_⟩ .nil)
      rw [numberSet_shown ht.numbers (field_shown ht.shown),
        numberSet_shown hnums' (field_shown hvisible'), htext, htext', hrow.numbers]

theorem rows_reencoded {rows' : List Value} (hrows : List.Forall₂ SameRow rows rows')
    (htext : ∀ row ∈ rows, (row.field "ticketNumbers").asArray? = none)
    (htext' : ∀ row ∈ rows', (row.field "ticketNumbers").asArray? = none) (hs : SameRows s s')
    (h : rows.foldlM (r.row source q payload booked issued) s = some t) :
    ∃ t', rows'.foldlM (r.row source q payload booked issued) s' = some t' ∧ SameRows t t' := by
  induction hrows generalizing s s' with
  | nil =>
    rw [List.foldlM_nil] at h
    cases h
    exact ⟨s', rfl, hs⟩
  | cons hrow _ ih =>
    rw [List.forall_mem_cons] at htext htext'
    simp only [List.foldlM_cons, bind_eq_some] at h
    obtain ⟨middle, hfirst, hrest⟩ := h
    obtain ⟨middle', hfirst', hmiddle⟩ := row_reencoded hrow hs htext.1 htext'.1 hfirst
    obtain ⟨t', ht', hlast⟩ := ih htext.2 htext'.2 hmiddle hrest
    refine ⟨t', ?_, hlast⟩
    rw [List.foldlM_cons, hfirst']
    exact ht'

/-! ## Reports -/

theorem addPart_agree {key k : String} {part : Option Value} {project : Value → Option Value}
    (h : AgreeOff key v v') {result : Value} (hv : addPart v k part project = some result) :
    ∃ result', addPart v' k part project = some result' ∧ AgreeOff key result result' := by
  cases part with
  | none =>
    cases hv
    exact ⟨v', rfl, h⟩
  | some part =>
    simp only [addPart, bind_eq_some] at hv ⊢
    obtain ⟨projected, hprojected, heq⟩ := hv
    obtain rfl := Option.some.inj heq
    exact ⟨_, ⟨projected, hprojected, rfl⟩, h.setField k projected⟩

/-- Of two encodings without lists one is accepted when the other is, and shows the same. -/
theorem project_reencoded {projected : Value} (h : Reencodes body body') (htext : TextNumbers body)
    (htext' : TextNumbers body') (hp : r.project body source q id = some projected) :
    ∃ projected', r.project body' source q id = some projected' ∧ Reencodes projected projected' := by
  obtain ⟨rows₁, rows', hrows₁, hrows', hall⟩ := h.rows
  have hfield : ∀ k, k ≠ "passengerInfo" → body.field k = body'.field k :=
    fun k hk => h.fields.field hk
  simp only [Reader.project, bind_eq_some, guard_eq_some, exists_const, Value.asArray?_eq_some,
    hfield "ticketInfo" (by decide), h.fields.get? "fareBreakdown" (by decide),
    h.fields.get? "segments" (by decide)] at hp
  obtain ⟨payload, hpayload, hinfo, hcode, price, hprice, hpriced, rows, hrows, booked, hbooked,
    issued, hissued, hlength, s, hs, middle, hmiddle, hprojected⟩ := hp
  obtain rfl := Value.arr.inj (hrows.symm.trans hrows₁)
  have hcount : rows.length = rows'.length := hall.length_eq
  have hstart : SameRows ⟨[], [], []⟩ ⟨[], [], []⟩ := ⟨rfl, fun _ => .rfl, .nil⟩
  obtain ⟨s', hs', hsame⟩ := rows_reencoded hall (htext rows hrows) (htext' rows' hrows') hstart hs
  have hresult : ∀ info : Value, AgreeOff "passengerInfo"
      (Value.object [("ticketInfo", info), ("passengerInfo", .arr s.passengers)])
      (Value.object [("ticketInfo", info), ("passengerInfo", .arr s'.passengers)]) := by
    intro info
    refine ⟨rfl, rfl, ?_⟩
    intro k hk
    have hne : ("passengerInfo" = k) = False := eq_false fun heq => hk heq.symm
    simp [Value.get?_object, hne]
  obtain ⟨middle', hmiddle', hagree⟩ := addPart_agree (hresult _) hmiddle
  obtain ⟨projected', hprojected', hlast⟩ := addPart_agree hagree hprojected
  refine ⟨projected', ?_, hlast, s.passengers, s'.passengers, ?_, ?_, hsame.passengers⟩
  · simp only [Reader.project, bind_eq_some, guard_eq_some, exists_const, Value.asArray?_eq_some]
    have hempty : rows' ≠ [] := by
      rw [← List.length_pos_iff, ← hcount, List.length_pos_iff]
      exact hlength.2.2
    exact ⟨payload, hpayload, hinfo, hcode, price, hprice, hpriced, rows', hrows', booked, hbooked,
      issued, hissued, ⟨hcount ▸ hlength.1, hlength.2.1, hempty⟩, s', hs', middle', hmiddle',
      hprojected'⟩
  · rw [field_addPart_ne hprojected (by decide), field_addPart_ne hmiddle (by decide)]
    simp [Value.field, Value.get?_object]
  · rw [field_addPart_ne hprojected' (by decide), field_addPart_ne hmiddle' (by decide)]
    simp [Value.field, Value.get?_object]

/-! ## Recovery -/

theorem recoveredTicket_agree (h : SameRow row row') : recoveredTicket row = recoveredTicket row' := by
  have hfield : ∀ k, k ≠ "ticketNumbers" → row.field k = row'.field k :=
    fun k hk => h.fields.field hk
  have hset : ∀ row, recoveredTicket row = (numberSet (row.field "ticketNumbers")).map fun nums =>
      Value.object [("passengerInfo", .object [("nameElement", .object [("title", row.field "title"),
          ("firstName", row.field "first"), ("middleName", row.field "middle"),
          ("lastName", row.field "last")]),
        ("passengerType", row.field "passengerType"), ("gender", row.field "gender")]),
      ("ticketNumbers", .arr (nums.map .str))] := by
    intro row
    rw [recoveredTicket, numberSet]
    cases ticketNumbers (row.field "ticketNumbers") <;> rfl
  rw [hset, hset, h.numbers]
  simp only [hfield "title" (by decide), hfield "first" (by decide), hfield "middle" (by decide),
    hfield "last" (by decide), hfield "passengerType" (by decide), hfield "gender" (by decide)]

theorem recoveredTickets_agree {rows' : List Value} (h : List.Forall₂ SameRow rows rows') :
    rows.mapM recoveredTicket = rows'.mapM recoveredTicket := by
  induction h with
  | nil => rfl
  | cons hrow _ ih => rw [List.mapM_cons, List.mapM_cons, recoveredTicket_agree hrow, ih]

/-- Nothing is recovered from a report that has a list. -/
theorem textNumbers_of_recover (h : r.recover body request payload q id issue = some evidence) :
    TextNumbers body := by
  simp only [Reader.recover, bind_eq_some, guard_eq_some, exists_const, Value.asArray?_eq_some] at h
  obtain ⟨-, projected, hprojected, shown, hshown, tickets, htickets, -⟩ := h
  obtain ⟨rows, shown', hrows, hshown', hall⟩ := project_shownRow hprojected
  obtain rfl := Value.arr.inj (hshown.symm.trans hshown')
  intro rows₁ hrows₁
  obtain rfl := Value.arr.inj (hrows.symm.trans hrows₁)
  intro row hrow
  obtain ⟨visible, hvisible, hkept⟩ := exists_right hall hrow
  obtain ⟨ticket, -, hticket⟩ := exists_right (mapM_eq_some htickets) hvisible
  simp only [recoveredTicket, bind_eq_some] at hticket
  obtain ⟨nums, hnums, -⟩ := hticket
  have hread := hkept.shown
  rw [numberSet, hnums] at hread
  cases hlist : (row.field "ticketNumbers").asArray? with
  | none => rfl
  | some values =>
    rw [hlist] at hread
    cases hread

/-- What is recovered from one encoding is recovered from every other one that has no list. -/
theorem recover_reencoded (h : Reencodes body body') (htext' : TextNumbers body')
    (hr : r.recover body request payload q id issue = some evidence) :
    r.recover body' request payload q id issue = some evidence := by
  have htext := textNumbers_of_recover hr
  have hfield : ∀ k, k ≠ "passengerInfo" → body.field k = body'.field k :=
    fun k hk => h.fields.field hk
  simp only [Reader.recover, bind_eq_some, guard_eq_some, exists_const, Value.asArray?_eq_some,
    hfield "ticketInfo" (by decide), hfield "segments" (by decide)] at hr ⊢
  obtain ⟨hguard, projected, hprojected, shown, hshown, tickets, htickets, heq⟩ := hr
  obtain ⟨projected', hprojected', hsame⟩ := project_reencoded h htext htext' hprojected
  obtain ⟨shown₁, shown', hshown₁, hshown', hall⟩ := hsame.rows
  obtain rfl := Value.arr.inj (hshown.symm.trans hshown₁)
  exact ⟨hguard, projected', hprojected', shown', hshown',
    tickets, recoveredTickets_agree hall ▸ htickets, heq⟩

/-- Ticket evidence survives a report just when no row gives its numbers as a list: an accepted report
shows the numbers of every row, and what is recovered from another encoding is recovered from it. -/
theorem ticketNumbers_survive_iff (r : Reader) (q : Quote) (id issue : Uuid) (body : Value) :
    (∀ source projected, r.project body source q id = some projected →
      (Carried body projected ↔ TextNumbers body)) ∧
    (∀ body' request payload evidence, Reencodes body body' →
      r.recover body' request payload q id issue = some evidence →
      (r.recover body request payload q id issue = some evidence ↔ TextNumbers body)) := by
  refine ⟨fun source projected hp => carried_iff hp, ?_⟩
  intro body' request payload evidence h hr
  constructor
  · exact textNumbers_of_recover
  · intro htext
    exact recover_reencoded h.symm htext hr

/-! ## One passenger -/

def sampleReader : Reader where
  casing := sampleChecks.casing
  decimals := Pricing.sampleDecimals
  instant s :=
    if s = "2026-09-29T10:00:00" then some 600
    else if s = "2026-09-29T11:00:00" then some 660
    else none

/-- An offer of one flight for one adult. -/
def sampleOffer : Value :=
  let segment := Value.object [("from", .str "DAC"), ("to", .str "CXB"),
    ("departure", .str "2026-09-29T10:00:00"), ("arrival", .str "2026-09-29T11:00:00")]
  let fare := Value.object [("totalPrice", .ofInt 100), ("basePrice", .ofInt 100),
    ("taxes", .ofInt 0), ("ait", .ofInt 0)]
  .object [("totalPrice", .ofInt 100), ("directions", .arr [.arr [.object [("segments",
    .arr [segment])]]]), ("passengerFares", .object [("adt", fare)])]

def sampleSold : Quote :=
  { sampleAccepted with original := .object [("item1", sampleOffer)]
                        selling := .object [("item1", sampleOffer)] }

def sampleRequest : Value :=
  .object [("passengerInfoes", .arr [(sampleAdult "Karim" "1960-01-01").toValue])]

/-- The report of the issued ticket, with its number written in one way or another. -/
def sampleReport (numbers : Value) : Value :=
  .object [("ticketInfo", .object [("pnr", .str "ABC123"), ("status", .str "Issued"),
      ("statusFor", .str "Ticket"), ("isCompleted", .bool true),
      ("issueDate", .str "2026-09-29T10:00:00"), ("ticketingPrice", .ofInt 100)]),
    ("passengerInfo", .arr [.object [("first", .str "Karim"), ("last", .str "Uddin"),
      ("passengerType", .str "ADT"), ("basePrice", .ofInt 100), ("tax", .ofInt 0),
      ("ait", .ofInt 0), ("totalPrice", .ofInt 100), ("ticketNumbers", numbers)]]),
    ("segments", .arr [.object [("origin", .str "DAC"), ("destination", .str "CXB"),
      ("departure", .str "2026-09-29T10:00:00"), ("arrival", .str "2026-09-29T11:00:00")]])]

def sampleText : Value := .str "7790000000001"

def sampleList : Value := .arr [.str "7790000000001"]

def samplePaid : Value := .object [("PNR", .str "ABC123")]

def sampleSource : Source := ⟨"takeoff", sampleRequest, some samplePaid, none⟩

/-- The number as a text is recovered.  The same number as a list is read and accepted, is not shown,
and nothing is recovered. -/
theorem ticketNumbers_lost :
    numberSet sampleText = numberSet sampleList ∧
    (sampleReader.recover (sampleReport sampleText) sampleRequest samplePaid sampleSold 4 5).isSome =
      true ∧
    sampleReader.recover (sampleReport sampleList) sampleRequest samplePaid sampleSold 4 5 = none ∧
    ((sampleReader.project (sampleReport sampleList) sampleSource sampleSold 4).map fun projected =>
      ((projected.field "passengerInfo").item 0).field "ticketNumbers") = some .null := by
  decide +kernel

theorem sampleReport_reencodes : Reencodes (sampleReport sampleText) (sampleReport sampleText) := by
  refine ⟨⟨rfl, rfl, fun _ _ => rfl⟩, _, _, rfl, rfl, .cons ⟨⟨rfl, rfl, fun _ _ => rfl⟩, rfl⟩ .nil⟩

theorem ticketNumbers_survive_iff_text :
    ∃ projected evidence,
      sampleReader.project (sampleReport sampleText) sampleSource sampleSold 4 = some projected ∧
      sampleReader.recover (sampleReport sampleText) sampleRequest samplePaid sampleSold 4 5 =
        some evidence ∧
      (Carried (sampleReport sampleText) projected ↔ TextNumbers (sampleReport sampleText)) ∧
      (sampleReader.recover (sampleReport sampleText) sampleRequest samplePaid sampleSold 4 5 =
        some evidence ↔ TextNumbers (sampleReport sampleText)) := by
  have haccepted : (sampleReader.project (sampleReport sampleText) sampleSource sampleSold
      4).isSome = true := by decide +kernel
  have hrecovered : (sampleReader.recover (sampleReport sampleText) sampleRequest samplePaid
      sampleSold 4 5).isSome = true := by decide +kernel
  obtain ⟨projected, hprojected⟩ := Option.isSome_iff_exists.mp haccepted
  obtain ⟨evidence, hevidence⟩ := Option.isSome_iff_exists.mp hrecovered
  have hsurvive := ticketNumbers_survive_iff sampleReader sampleSold 4 5 (sampleReport sampleText)
  exact ⟨projected, evidence, hprojected, hevidence, hsurvive.1 _ _ hprojected,
    hsurvive.2 _ _ _ _ sampleReport_reencodes hevidence⟩

end ShaponTravels.Booking.Report
