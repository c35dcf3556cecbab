import ShaponTravels.Markup.History

/-!
# Runs — the rules over whole runs of commands, searches and RePrices
-/

namespace ShaponTravels.Markup

open Library ShaponTravels.Pricing

variable {desk : Desk} {s s' : System} {e : Event}

/-! ## Steps -/

/-- The version of a rule an event edits. -/
def Event.version (e : Event) : Option (Uuid × Nat) := e.edit.map fun p => (p.1, p.2.toNat)

/-- A step changes the rules as one command does, or leaves them. -/
theorem step_book (h : s.step desk e = .ok s') :
    Change s.db.book s'.db.book e.version ∨
      (e.version = none ∧ s'.db.book = s.db.book) := by
  cases e with
  | create who agents id input =>
    simp only [System.step, bind_eq_ok, pure_eq_ok] at h
    obtain ⟨⟨row, book⟩, hcreate, rfl⟩ := h
    exact .inl (create_ok hcreate)
  | update who agents id expectedVersion rule =>
    simp only [System.step, bind_eq_ok, pure_eq_ok] at h
    obtain ⟨⟨row, book⟩, hupdate, rfl⟩ := h
    exact .inl (update_ok hupdate)
  | status who agents id expectedVersion active =>
    simp only [System.step, bind_eq_ok, pure_eq_ok] at h
    obtain ⟨⟨row, book⟩, hstatus, rfl⟩ := h
    exact .inl (status_ok hstatus)
  | remove who id expectedVersion seen =>
    simp only [System.step, bind_eq_ok, pure_eq_ok] at h
    obtain ⟨⟨disposition, book⟩, hremove, rfl⟩ := h
    exact .inl (remove_ok hremove)
  | loadSearch id client request suppliers =>
    simp only [System.step, bind_eq_ok, pure_eq_ok] at h
    obtain ⟨-, -, loaded, -, rfl⟩ := h
    exact .inr ⟨rfl, rfl⟩
  | saveSearch id fresh originals =>
    simp only [System.step, bind_eq_ok, pure_eq_ok, Markup.saveSearch] at h
    obtain ⟨x, -, db, ⟨-, -, offers, -, -, -, -, -, rfl⟩, rfl⟩ := h
    exact .inr ⟨rfl, rfl⟩
  | loadReprice id client offer =>
    simp only [System.step, bind_eq_ok, pure_eq_ok] at h
    obtain ⟨-, -, row, -, search, -, loaded, -, rfl⟩ := h
    exact .inr ⟨rfl, rfl⟩
  | saveReprice id fresh answer =>
    simp only [System.step, bind_eq_ok, pure_eq_ok, Markup.saveReprice] at h
    obtain ⟨x, -, db, ⟨price, -, -, -, -, -, -, -, rfl⟩, rfl⟩ := h
    exact .inr ⟨rfl, rfl⟩
  | cleanup offers searches =>
    cases h
    exact .inr ⟨rfl, rfl⟩

theorem step_edit (h : s.step desk e = .ok s') :
    Edit s.db.book.history e.version s'.db.book.history := by
  rcases step_book h with hchange | ⟨hnone, hbook⟩
  · exact hchange.edit
  · rw [hnone, hbook]
    exact .stay

/-! ## The invariant -/

structure System.Sound (desk : Desk) (s : System) : Prop where
  book : s.db.book.Sound
  searching : ∀ x ∈ s.searching, x.loaded.Sound s.db.book.versions
  repricing : ∀ x ∈ s.repricing, x.loaded.Sound s.db.book.versions
  /-- Every offer is one of a search, priced with the rules that search had loaded. -/
  offers : ∀ o ∈ s.db.priced.offers, ∃ x, lookup Searching.id o.searchId s.searching = some x ∧
    OfferEvidence desk.decimals s.db.book.versions x.loaded o
  /-- Every price is one of a RePrice, priced with the rules that RePrice had loaded. -/
  prices : ∀ p ∈ s.db.priced.prices, ∃ x, lookup Repricing.id p.id s.repricing = some x ∧
    x.offer.id = p.offerId ∧ PriceEvidence desk.decimals s.db.book.versions x.loaded p

theorem sound_empty : System.empty.Sound desk where
  book := ⟨.empty, List.nodup_nil, nofun, nofun⟩
  searching := nofun
  repricing := nofun
  offers := nofun
  prices := nofun

/-- What was loaded and saved stays explained while the rules move on. -/
theorem System.Sound.withBook (hs : s.Sound desk) {book : Rulebook} (hbook : book.Sound)
    (h : s.db.book.versions ⊆ book.versions) : (s.withBook book).Sound desk where
  book := hbook
  searching x hx := (hs.searching x hx).mono h
  repricing x hx := (hs.repricing x hx).mono h
  offers o ho := by
    obtain ⟨x, hx, hevidence⟩ := hs.offers o ho
    exact ⟨x, hx, hevidence.mono h⟩
  prices p hp := by
    obtain ⟨x, hx, hoffer, hevidence⟩ := hs.prices p hp
    exact ⟨x, hx, hoffer, hevidence.mono h⟩

theorem System.Sound.command (hs : s.Sound desk) {book : Rulebook} {label : Option (Uuid × Nat)}
    (h : Change s.db.book book label) : (s.withBook book).Sound desk :=
  hs.withBook (h.sound hs.book) h.versions.subset

theorem lookup_append_of_some {κ α : Type} [DecidableEq κ] {key : α → κ} {k : κ} {rows : List α}
    {r r' : α} (h : lookup key k rows = some r) : lookup key k (rows ++ [r']) = some r := by
  rw [lookup_concat, h, Option.some_or]

theorem loadSearch_sound {db : Rulebook} {client : Client} {request : Search.SearchRequest}
    {suppliers : List (Option (Option String))} {l : Loaded} (hs : db.Sound)
    (h : db.loadSearch client request suppliers = .ok l) : l.Sound db.versions := by
  simp only [Rulebook.loadSearch, bind_eq_ok, pure_eq_ok] at h
  obtain ⟨-, -, -, -, currency, -, loaded, hloaded, -, -, rfl⟩ := h
  exact load_sound hs hloaded

theorem System.Sound.saveSearch (hs : s.Sound desk) {x : Searching}
    (hx : lookup Searching.id x.id s.searching = some x) {fresh : Uuid → String → Uuid}
    {originals : List (Uuid × Value)} {db : Db}
    (h : Markup.saveSearch desk.decimals s.db x fresh originals = .ok db) :
    System.Sound desk { s with db } := by
  simp only [Markup.saveSearch, bind_eq_ok, pure_eq_ok] at h
  obtain ⟨-, -, offers, hoffers, -, -, -, -, rfl⟩ := h
  constructor
  case book => exact hs.book
  case searching => exact hs.searching
  case repricing => exact hs.repricing
  case prices => exact hs.prices
  case offers =>
    intro o ho
    rcases List.mem_append.mp ho with ho | ho
    · exact hs.offers o ho
    · obtain ⟨original, -, hoffer⟩ := exists_input hoffers ho
      obtain ⟨hsearch, hevidence⟩ := offer_ok (hs.searching x (lookup_mem hx)) hoffer
      exact ⟨x, by rw [hsearch]; exact hx, hevidence⟩

theorem System.Sound.saveReprice (hs : s.Sound desk) {x : Repricing}
    (hx : lookup Repricing.id x.id s.repricing = some x) {fresh : String → Uuid} {answer : Value}
    {db : Db} (h : Markup.saveReprice desk s.db x fresh answer = .ok db) :
    System.Sound desk { s with db } := by
  simp only [Markup.saveReprice, bind_eq_ok, pure_eq_ok] at h
  obtain ⟨price, hprice, -, -, -, -, -, -, rfl⟩ := h
  constructor
  case book => exact hs.book
  case searching => exact hs.searching
  case repricing => exact hs.repricing
  case offers => exact hs.offers
  case prices =>
    intro p hp
    rcases List.mem_append.mp hp with hp | hp
    · exact hs.prices p hp
    · rw [List.mem_singleton.mp hp]
      obtain ⟨hid, hoffer, hevidence⟩ := price_ok (hs.repricing x (lookup_mem hx)) hprice
      exact ⟨x, by rw [hid]; exact hx, hoffer.symm, hevidence⟩

theorem System.Sound.step (hs : s.Sound desk) (h : s.step desk e = .ok s') : s'.Sound desk := by
  cases e with
  | create who agents id input =>
    simp only [System.step, bind_eq_ok, pure_eq_ok] at h
    obtain ⟨⟨row, book⟩, hcreate, rfl⟩ := h
    exact hs.command (create_ok hcreate)
  | update who agents id expectedVersion rule =>
    simp only [System.step, bind_eq_ok, pure_eq_ok] at h
    obtain ⟨⟨row, book⟩, hupdate, rfl⟩ := h
    exact hs.command (update_ok hupdate)
  | status who agents id expectedVersion active =>
    simp only [System.step, bind_eq_ok, pure_eq_ok] at h
    obtain ⟨⟨row, book⟩, hstatus, rfl⟩ := h
    exact hs.command (status_ok hstatus)
  | remove who id expectedVersion seen =>
    simp only [System.step, bind_eq_ok, pure_eq_ok] at h
    obtain ⟨⟨disposition, book⟩, hremove, rfl⟩ := h
    exact hs.command (remove_ok hremove)
  | loadSearch id client request suppliers =>
    simp only [System.step, bind_eq_ok, pure_eq_ok] at h
    obtain ⟨-, -, loaded, hloaded, rfl⟩ := h
    constructor
    case book => exact hs.book
    case repricing => exact hs.repricing
    case prices => exact hs.prices
    case searching =>
      intro x hx
      rcases List.mem_append.mp hx with hx | hx
      · exact hs.searching x hx
      · rw [List.mem_singleton.mp hx]
        exact loadSearch_sound hs.book hloaded
    case offers =>
      intro o ho
      obtain ⟨x, hx, hevidence⟩ := hs.offers o ho
      exact ⟨x, lookup_append_of_some hx, hevidence⟩
  | saveSearch id fresh originals =>
    simp only [System.step, bind_eq_ok, fetch_eq_ok, pure_eq_ok] at h
    obtain ⟨x, hx, db, hsave, rfl⟩ := h
    exact hs.saveSearch (by rwa [lookup_key hx]) hsave
  | loadReprice id client offer =>
    simp only [System.step, bind_eq_ok, pure_eq_ok] at h
    obtain ⟨-, -, row, -, search, -, loaded, hloaded, rfl⟩ := h
    constructor
    case book => exact hs.book
    case searching => exact hs.searching
    case offers => exact hs.offers
    case repricing =>
      intro x hx
      rcases List.mem_append.mp hx with hx | hx
      · exact hs.repricing x hx
      · rw [List.mem_singleton.mp hx]
        exact load_sound hs.book hloaded
    case prices =>
      intro p hp
      obtain ⟨x, hx, hevidence⟩ := hs.prices p hp
      exact ⟨x, lookup_append_of_some hx, hevidence⟩
  | saveReprice id fresh answer =>
    simp only [System.step, bind_eq_ok, fetch_eq_ok, pure_eq_ok] at h
    obtain ⟨x, hx, db, hsave, rfl⟩ := h
    exact hs.saveReprice (by rwa [lookup_key hx]) hsave
  | cleanup offers searches =>
    cases h
    constructor
    case book => exact hs.book
    case searching => exact hs.searching
    case repricing => exact hs.repricing
    case prices => exact hs.prices
    case offers => exact fun o ho => hs.offers o (List.mem_of_mem_filter ho)

/-! ## The history of a run -/

def Rulebook.versionsOf (db : Rulebook) (id : Uuid) : List Nat :=
  (db.versions.filter fun v => v.ruleId = id).map RuleVersion.version

theorem versionsOf_history (db : Rulebook) (id : Uuid) :
    db.history.versionsOf id = db.versionsOf id := by
  rw [Versions.versionsOf, Rulebook.history, List.filter_map, List.map_map]
  rfl

/-- What a process holds at the end of a run, or has held. -/
def System.loads (s : System) : List Loaded :=
  s.searching.map Searching.loaded ++ s.repricing.map Repricing.loaded

/-- The rules of a run `t` that ends in `w`, from an empty table. -/
structure MarkupHistory (desk : Desk) (t : List (Transition System Event)) (w : System) : Prop where
  ids : KeyUnique RuleRow.id w.db.book.rules
  oneActive : ∀ r ∈ w.db.book.rules, ∀ r' ∈ w.db.book.rules, r.record.active → r'.record.active →
    r.record.input.scope = r'.record.input.scope → r = r'
  /-- The rules a search or a RePrice has loaded never compete. -/
  unambiguous : ∀ l ∈ w.loads, ∀ audience airline route,
    resolve l.rules audience airline route ≠ .error .duplicateMatchingRules
  numbered : ∀ r ∈ w.db.book.rules, w.db.book.versionsOf r.id = List.range' 1 r.record.version
  /-- A deleted rule keeps the versions it had, and does not come back. -/
  deleted : ∀ r ∈ t, ∀ row ∈ r.before.db.book.rules,
    (∀ row' ∈ r.after.db.book.rules, row'.id ≠ row.id) →
      w.db.book.versionsOf row.id = List.range' 1 row.record.version ∧
        ∀ row' ∈ w.db.book.rules, row'.id ≠ row.id
  /-- A recorded definition is a row as it stood at that version. -/
  recorded : ∀ v ∈ w.db.book.versions, ∃ r ∈ t, ∃ row ∈ r.after.db.book.rules,
    row.id = v.ruleId ∧ row.record.version = v.version ∧ row.record = v.definition
  /-- A row is recorded as it stands. -/
  standing : ∀ r ∈ t, ∀ row ∈ r.after.db.book.rules, ∃ v ∈ w.db.book.versions,
    v.ruleId = row.id ∧ v.version = row.record.version ∧ v.definition = row.record
  /-- An archived rule is inactive, and stays as it is. -/
  archived : ∀ r ∈ t, ∀ row ∈ r.after.db.book.rules, row.archived →
    row.record.active = false ∧ row ∈ w.db.book.rules
  editedOnce : ∀ id expectedVersion,
    t.countP (fun r => r.label.edit = some (id, expectedVersion)) ≤ 1
  offers : ∀ o ∈ w.db.priced.offers, ∃ x, lookup Searching.id o.searchId w.searching = some x ∧
    OfferEvidence desk.decimals w.db.book.versions x.loaded o
  prices : ∀ p ∈ w.db.priced.prices, ∃ x, lookup Repricing.id p.id w.repricing = some x ∧
    x.offer.id = p.offerId ∧ PriceEvidence desk.decimals w.db.book.versions x.loaded p

abbrev historyMachine : Machine (Versions Uuid RuleRow RuleRecord) (Option (Uuid × Nat)) :=
  Versions.machine (fun r => r.archived = true) RuleRow.record

def historyStep (r : Transition System Event) :
    Transition (Versions Uuid RuleRow RuleRecord) (Option (Uuid × Nat)) :=
  ⟨r.before.db.book.history, r.label.version, r.after.db.book.history⟩

/-- A run of the system is a run of its history. -/
theorem run_history {t : List (Transition System Event)} (h : (machine desk).Run s t s') :
    historyMachine.Run s.db.book.history (t.map historyStep) s'.db.book.history :=
  h.map (f := fun s => s.db.book.history) (g := Event.version) fun _ _ _ hstep => step_edit hstep

theorem run_sound {t : List (Transition System Event)} (h : (machine desk).Run s t s')
    (hs : s.Sound desk) : s'.Sound desk :=
  h.invariant (I := System.Sound desk) (fun _ _ _ hs hstep => hs.step hstep) hs

/-- Between two states of a run nothing recorded is lost. -/
theorem run_kept {t : List (Transition System Event)} (h : (machine desk).Run s t s')
    (hs : s.Sound desk) :
    Versions.Kept (fun r : RuleRow => r.archived = true) s.db.book.history s'.db.book.history :=
  Versions.run_kept (run_history h) hs.book.history

variable {t : List (Transition System Event)} {w : System}

theorem deleted_of_run (h : (machine desk).Run .empty t w) {r : Transition System Event} (hr : r ∈ t)
    {row : RuleRow} (hrow : row ∈ r.before.db.book.rules)
    (hgone : ∀ row' ∈ r.after.db.book.rules, row'.id ≠ row.id) :
    w.db.book.versionsOf row.id = List.range' 1 row.record.version ∧
      ∀ row' ∈ w.db.book.rules, row'.id ≠ row.id := by
  obtain ⟨t₁, t₂, -, hbefore, hstep, hafter⟩ := h.split hr
  have hs := run_sound hbefore sound_empty
  have hrow' : row.entry ∈ r.before.db.book.history.live := List.mem_map_of_mem hrow
  have hgone' : ∀ e ∈ r.after.db.book.history.live, e.key ≠ row.entry.key := by
    intro e he
    obtain ⟨row', hrow', rfl⟩ := List.mem_map.mp he
    exact hgone row' hrow'
  have hlog := Versions.log_of_removed (step_edit hstep) hrow' hgone'
  have hlogged : Versions.logged RuleRow.record row.entry ∈ r.after.db.book.history.log := by
    rw [hlog]
    exact hs.book.history.recorded _ hrow'
  obtain ⟨hlive, hsame⟩ :=
    (run_kept hafter (hs.step hstep)).gone row.id ⟨_, hlogged, rfl⟩ hgone'
  constructor
  · have hnumbered := hs.book.history.numbered _ hrow'
    rw [← versionsOf_history, hsame, Versions.versionsOf, hlog]
    exact hnumbered
  · intro row' hrow'
    exact hlive row'.entry (List.mem_map_of_mem hrow')

/-- Of every run from an empty table. -/
theorem markup_history (h : (machine desk).Run .empty t w) : MarkupHistory desk t w := by
  have hs := run_sound h sound_empty
  have hafter : ∀ r ∈ t, r.after.Sound desk ∧ ∃ t', (machine desk).Run r.after t' w := by
    intro r hr
    obtain ⟨t₁, t₂, -, hbefore, hstep, hrest⟩ := h.split hr
    exact ⟨(run_sound hbefore sound_empty).step hstep, t₂, hrest⟩
  constructor
  case ids => exact hs.book.ids
  case oneActive =>
    intro r hr r' hr' hactive hactive' hscope
    exact List.inj_on_of_nodup_map hs.book.active (List.mem_filter.mpr ⟨hr, hactive⟩)
      (List.mem_filter.mpr ⟨hr', hactive'⟩) hscope
  case unambiguous =>
    intro l hl audience airline route
    have hsound : l.Sound w.db.book.versions := by
      rcases List.mem_append.mp hl with hl | hl
      · obtain ⟨x, hx, rfl⟩ := List.mem_map.mp hl
        exact hs.searching x hx
      · obtain ⟨x, hx, rfl⟩ := List.mem_map.mp hl
        exact hs.repricing x hx
    exact resolve_unambiguous hsound.scopes
  case numbered =>
    intro r hr
    rw [← versionsOf_history]
    exact hs.book.history.numbered r.entry (List.mem_map_of_mem hr)
  case deleted =>
    intro r hr row hrow hgone
    exact deleted_of_run h hr hrow hgone
  case recorded =>
    intro v hv
    rcases Versions.run_logged (run_history h) (List.mem_map_of_mem hv) with hnone | hlogged
    · cases hnone
    · obtain ⟨r', hr', e, he, hlogged⟩ := hlogged
      obtain ⟨r, hr, rfl⟩ := List.mem_map.mp hr'
      obtain ⟨row, hrow, rfl⟩ := List.mem_map.mp he
      simp only [RuleVersion.entry, Versions.logged, RuleRow.entry, Entry.mk.injEq] at hlogged
      exact ⟨r, hr, row, hrow, hlogged.1.symm, hlogged.2.1.symm, hlogged.2.2.symm⟩
  case standing =>
    intro r hr row hrow
    obtain ⟨hsound, t', hrest⟩ := hafter r hr
    have hlogged := (run_kept hrest hsound).log.subset
      (hsound.book.history.recorded row.entry (List.mem_map_of_mem hrow))
    obtain ⟨v, hv, hentry⟩ := List.mem_map.mp hlogged
    simp only [RuleVersion.entry, Versions.logged, RuleRow.entry, Entry.mk.injEq] at hentry
    exact ⟨v, hv, hentry⟩
  case archived =>
    intro r hr row hrow harchived
    obtain ⟨hsound, t', hrest⟩ := hafter r hr
    refine ⟨hsound.book.archived row hrow harchived, ?_⟩
    have hkept := (run_kept hrest hsound).closed row.entry (List.mem_map_of_mem hrow) harchived
    obtain ⟨row', hrow', hentry⟩ := List.mem_map.mp hkept
    simp only [RuleRow.entry, Entry.mk.injEq] at hentry
    rwa [← hentry.2.2]
  case editedOnce =>
    intro id expectedVersion
    have honce := Versions.run_edit_once (run_history h) Versions.Sound.empty id expectedVersion.toNat
    rw [List.countP_map] at honce
    refine le_trans (List.countP_mono_left fun r _ hedit => ?_) honce
    simp only [decide_eq_true_eq] at hedit
    simp [historyStep, Event.version, hedit]
  case offers => exact hs.offers
  case prices => exact hs.prices

/-- Texts as they are, and no check of the supplier's fare. -/
def sampleDesk : Desk := ⟨sampleDecimals, ⟨id⟩, fun _ _ _ => .ok ()⟩

def sampleInput : RuleInput where
  name := "B2B default"
  audience := "b2b"
  agentId := none
  airline := none
  origin := none
  destination := none
  kind := "fixed"
  amount := "5"
  currency := "BDT"

def sampleAuthor : Author := ⟨⟨7, "super_admin"⟩, false⟩

/-- A fare with the supplier's references. -/
def sampleOriginal : Value :=
  ((sampleFare 100 100).setField "uniqueTransID" (.str "t")).setField "itemCodeRef" (.str "i")

/-- A rule is deleted while a search that loaded it waits for its suppliers. -/
def sampleEvents : List Event :=
  [.create sampleAuthor (fun _ => 0) 1 sampleInput,
    .status sampleAuthor (fun _ => 0) 1 1 true,
    .loadSearch 10 ⟨3, "b2b", none, none, 0⟩
      ⟨[⟨"DAC", "LHR", "2030-01-01"⟩], 1, 0, 0, 1, [], [], [], none⟩ [some (some "BDT")],
    .remove sampleAuthor 1 2 ⟨[], []⟩,
    .saveSearch 10 (fun _ _ => 0) [(20, sampleOriginal)]]

set_option maxRecDepth 10000 in
/-- The offer of a search refers to the version of a rule that was deleted meanwhile. -/
theorem markup_history_deleted : ∃ t w o, (machine sampleDesk).Run .empty t w ∧
    w.db.book.rules = [] ∧ o ∈ w.db.priced.offers ∧ o.ruleId = 1 ∧
    w.db.book.versionsOf 1 = [1, 2] ∧ MarkupHistory sampleDesk t w := by
  have hrun : (sampleEvents.foldlM (System.step sampleDesk) .empty).map (fun w =>
      (w.db.book.rules, w.db.priced.offers.map OfferRow.ruleId, w.db.book.versionsOf 1)) =
      .ok ([], [1], [1, 2]) := by
    decide +kernel
  obtain ⟨w, hw, hends⟩ := map_eq_ok.mp hrun
  simp only [Prod.mk.injEq] at hends
  obtain ⟨hrules, hoffers, hversions⟩ := hends
  obtain ⟨t, ht⟩ := Machine.Run.foldlM (M := machine sampleDesk) (fun _ _ _ h => h) (.nil _) hw
  obtain ⟨o, ho, hid⟩ : ∃ o ∈ w.db.priced.offers, o.ruleId = 1 := by
    rw [← List.mem_map, hoffers]
    exact List.mem_singleton_self _
  exact ⟨t, w, o, ht, hrules, ho, hid, hversions, markup_history ht⟩

end ShaponTravels.Markup
