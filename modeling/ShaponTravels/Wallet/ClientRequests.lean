import Mathlib.Data.List.Sort
import ShaponTravels.Library.Transition
import ShaponTravels.Wallet.TicketQuotes

/-!
# ClientRequests — what a client asks for, put into one form

`CreateRequest` of `wallet/ticket_management/client.rs`, its fingerprint, and the table of replays.  The
portal's own command (`wallet/ticket_management/mod.rs`) is put into form in the same way.
-/

namespace ShaponTravels.Wallet.TicketManagement

open Library

/-! ## Requests -/

/-- `rules::RequestType`. -/
inductive RequestType where
  | voluntary
  | involuntary
  deriving DecidableEq, Repr

def Action.text : Action → String
  | .refund => "refund"
  | .reissue => "reissue"
  | .void => "void"

def RequestType.text : RequestType → String
  | .voluntary => "voluntary"
  | .involuntary => "involuntary"

structure ReissuePreference where
  routeIndex : Nat
  departureDate : String
  preferredFlight : Option String
  deriving DecidableEq

structure CreateRequest where
  bookingReference : String
  requestId : Uuid
  action : Action
  requestType : RequestType
  passengerIndexes : List Nat
  routeIndexes : List Nat
  reissuePreferences : List ReissuePreference
  note : Option String
  deriving DecidableEq

/-- `rules::indexes`. -/
def indexes (values : List Nat) (count : Nat) : Except ApiError Unit :=
  ensure (values ≠ [] ∧ values.length ≤ 20 ∧ (∀ i ∈ values, i < count) ∧ values.Nodup)
    (invalid "INVALID_TICKET_SELECTION")

/-- `sort_unstable` of positions. -/
def sortIndexes (values : List Nat) : List Nat := values.insertionSort (· ≤ ·)

/-- `sort_by_key` of the preferences, which is stable. -/
def sortPreferences (preferences : List ReissuePreference) : List ReissuePreference :=
  preferences.insertionSort fun p p' => p.routeIndex ≤ p'.routeIndex

/-- One turn of the loop over the preferences; `parses` is `NaiveDate::parse_from_str` with the format
of a date. -/
def checkPreference (parses : String → Bool) (p : ReissuePreference) : Except ApiError Unit := do
  ensure (p.departureDate.utf8ByteSize = 10 ∧ parses p.departureDate) (invalid "INVALID_REISSUE_DATE")
  text p.preferredFlight 80 false

namespace CreateRequest

/-- The three lists in order. -/
def sorted (r : CreateRequest) : CreateRequest :=
  { r with
    passengerIndexes := sortIndexes r.passengerIndexes
    routeIndexes := sortIndexes r.routeIndexes
    reissuePreferences := sortPreferences r.reissuePreferences }

/-- What `normalize` checks of the preferences, once they are in order. -/
def checkPreferences (parses : String → Bool) (r : CreateRequest) : Except ApiError Unit :=
  if r.action = .reissue then do
    ensure (r.reissuePreferences.map (·.routeIndex) = r.routeIndexes) (invalid "REISSUE_PREFERENCES_REQUIRED")
    r.reissuePreferences.forM (checkPreference parses)
  else
    ensure (r.reissuePreferences = []) (invalid "UNEXPECTED_REISSUE_PREFERENCES")

/-- `CreateRequest::normalize`. -/
def normalize (parses : String → Bool) (r : CreateRequest) : Except ApiError CreateRequest := do
  indexes r.passengerIndexes 20
  indexes r.routeIndexes 20
  text r.note 1000 false
  r.sorted.checkPreferences parses
  return r.sorted

/-- The request as `Serialize` writes it. -/
def json (r : CreateRequest) : Value :=
  .object [("bookingReference", .str r.bookingReference), ("requestId", .str r.requestId.text),
    ("action", .str r.action.text), ("requestType", .str r.requestType.text),
    ("passengerIndexes", .arr (r.passengerIndexes.map fun i => .ofInt i)),
    ("routeIndexes", .arr (r.routeIndexes.map fun i => .ofInt i)),
    ("reissuePreferences", .arr (r.reissuePreferences.map fun p =>
      .object [("routeIndex", .ofInt p.routeIndex), ("departureDate", .str p.departureDate),
        ("preferredFlight", .ofOption p.preferredFlight)])),
    ("note", .ofOption r.note)]

/-- The hash `create` compares. -/
def fingerprint (digest : String → Digest) (r : CreateRequest) : Digest :=
  digest (Value.object [("operation", .str "create"), ("input", r.json)]).text

end CreateRequest

/-- `Command::Create`, the portal's own request. -/
structure CreateCommand where
  requestId : Uuid
  bookingReference : String
  kind : Action
  requestType : RequestType
  passengerIndexes : List Nat
  routeIndexes : List Nat
  note : Option String
  deriving DecidableEq

namespace CreateCommand

/-- What `handle` makes of the command before it is hashed. -/
def sorted (c : CreateCommand) : CreateCommand :=
  { c with passengerIndexes := sortIndexes c.passengerIndexes, routeIndexes := sortIndexes c.routeIndexes }

/-- The command as `Serialize` writes it. -/
def json (c : CreateCommand) : Value :=
  .object [("action", .str "create"), ("requestId", .str c.requestId.text),
    ("bookingReference", .str c.bookingReference), ("kind", .str c.kind.text),
    ("requestType", .str c.requestType.text),
    ("passengerIndexes", .arr (c.passengerIndexes.map fun i => .ofInt i)),
    ("routeIndexes", .arr (c.routeIndexes.map fun i => .ofInt i)), ("note", .ofOption c.note)]

/-- The hash `handle` compares. -/
def fingerprint (digest : String → Digest) (actor : String) (c : CreateCommand) : Digest :=
  digest (Value.object [("actor", .str actor), ("command", c.json)]).text

end CreateCommand

/-! ## Replays -/

/-- `ticket_management_replays`. -/
structure Replay where
  actorId : String
  requestKey : Uuid
  requestHash : Digest
  requestId : Uuid
  result : Value

/-- The row of a key; `(actor_id, request_key)` is the primary key. -/
def replayOf (rows : List Replay) (actor : String) (key : Uuid) : Option Replay :=
  rows.find? fun r => r.actorId = actor ∧ r.requestKey = key

/-- `store::replay`. -/
def replay (rows : List Replay) (actor : String) (key : Uuid) (hash : Digest) :
    Except ApiError (Option Value) :=
  match replayOf rows actor key with
  | none => .ok none
  | some old => do
    ensure (old.requestHash = hash) (conflict "IDEMPOTENCY_KEY_REUSED")
    return some (old.result.setField "replay" (.bool true))

/-- `store::save_replay`. -/
def saveReplay (rows : List Replay) (row : Replay) : Except ApiError (List Replay) := do
  ensure (replayOf rows row.actorId row.requestKey = none)
    (.ofDb (.unique "ticket_management_replays_pkey"))
  return rows ++ [row]

/-! ## Creating -/

/-- The tables: the replays, and the others as they come. -/
structure Store (σ : Type) where
  replays : List Replay
  others : σ

/-- What `create` calls on the way: the authority of a client, the scope of a request it made, whether an
identifier is taken, and the checks and rows of a new request. -/
structure Intake (σ : Type) where
  digest : String → Digest
  parses : String → Bool
  begin : Uuid → σ → Except ApiError Unit
  requestScoped : Uuid → Uuid → σ → Except ApiError σ
  used : Uuid → σ → Bool
  createRequest : Uuid → CreateRequest → σ → Except ApiError (Value × σ)

/-- `StatusCode::OK` or `StatusCode::CREATED`, and the body. -/
structure Created where
  fresh : Bool
  body : Value

/-- `create`.  The actor of a client is its identifier. -/
def create {σ : Type} (d : Intake σ) (client : Uuid) (input : CreateRequest) (s : Store σ) :
    Except ApiError (Created × Store σ) := do
  let input ← input.normalize d.parses
  d.begin client s.others
  match ← replay s.replays client.text input.requestId (input.fingerprint d.digest) with
  | some saved => do
    let others ← d.requestScoped client input.requestId s.others
    return (⟨false, saved⟩, ⟨s.replays, others⟩)
  | none => do
    ensure (¬ d.used input.requestId s.others) (conflict "TICKET_REQUEST_ID_CONFLICT")
    let (value, others) ← d.createRequest client input s.others
    let replays ← saveReplay s.replays
      ⟨client.text, input.requestId, input.fingerprint d.digest, input.requestId, value⟩
    return (⟨true, value⟩, ⟨replays, others⟩)

/-- What happens to the store: a client creates, another mutation saves its replay, or the other tables
change. -/
inductive Request (σ : Type) where
  | create (client : Uuid) (input : CreateRequest)
  | mutate (row : Replay) (others : σ)
  | outside (others : σ)

def intake {σ : Type} (d : Intake σ) : Machine (Store σ) (Request σ) where
  init s := s.replays = []
  step s request s' :=
    match request with
    | .create client input => ∃ reply, create d client input s = .ok (reply, s')
    | .mutate row others => ∃ rows, saveReplay s.replays row = .ok rows ∧ s' = ⟨rows, others⟩
    | .outside others => s' = ⟨s.replays, others⟩

/-! ## The order of the lists -/

/-- Two requests that differ only in the order of their lists. -/
structure Reordered (r r' : CreateRequest) : Prop where
  passengers : r.passengerIndexes.Perm r'.passengerIndexes
  routes : r.routeIndexes.Perm r'.routeIndexes
  preferences : r.reissuePreferences.Perm r'.reissuePreferences
  rest : r' = { r with
    passengerIndexes := r'.passengerIndexes
    routeIndexes := r'.routeIndexes
    reissuePreferences := r'.reissuePreferences }

variable {r r' a : CreateRequest} {xs ys : List Nat} {parses : String → Bool}

theorem Reordered.symm (h : Reordered r r') : Reordered r' r := by
  refine ⟨h.passengers.symm, h.routes.symm, h.preferences.symm, ?_⟩
  rw [h.rest]

theorem sortIndexes_perm (h : xs.Perm ys) : sortIndexes xs = sortIndexes ys :=
  List.Perm.eq_of_pairwise' (List.pairwise_insertionSort _ xs) (List.pairwise_insertionSort _ ys)
    ((List.perm_insertionSort _ xs).trans (h.trans (List.perm_insertionSort _ ys).symm))

theorem sortIndexes_again (xs : List Nat) : sortIndexes (sortIndexes xs) = sortIndexes xs :=
  sortIndexes_perm (List.perm_insertionSort _ xs)

theorem indexes_perm (h : xs.Perm ys) (count : Nat) : indexes xs count = indexes ys count := by
  have hne : xs ≠ [] ↔ ys ≠ [] := by
    rw [← List.length_pos_iff, ← List.length_pos_iff, h.length_eq]
  have hmem : (∀ i ∈ xs, i < count) ↔ ∀ i ∈ ys, i < count := by simp only [h.mem_iff]
  simp only [indexes, hne, h.length_eq, hmem, h.nodup_iff]

theorem preferences_sorted (ps : List ReissuePreference) :
    (sortPreferences ps).Pairwise fun p p' => p.routeIndex ≤ p'.routeIndex := by
  have : Std.Total fun p p' : ReissuePreference => p.routeIndex ≤ p'.routeIndex := ⟨fun _ _ => Nat.le_total _ _⟩
  have : IsTrans ReissuePreference fun p p' => p.routeIndex ≤ p'.routeIndex :=
    ⟨fun _ _ _ => Nat.le_trans⟩
  exact List.pairwise_insertionSort _ ps

theorem sortPreferences_again (ps : List ReissuePreference) :
    sortPreferences (sortPreferences ps) = sortPreferences ps :=
  (preferences_sorted ps).insertionSort_eq

/-- Preferences of different routes are in one order only. -/
theorem sortPreferences_perm {ps ps' : List ReissuePreference} (h : ps.Perm ps')
    (hnodup : (ps.map (·.routeIndex)).Nodup) : sortPreferences ps = sortPreferences ps' := by
  have hps : (sortPreferences ps).Perm ps := List.perm_insertionSort _ ps
  have hps' : (sortPreferences ps').Perm ps' := List.perm_insertionSort _ ps'
  refine List.Perm.eq_of_pairwise ?_ (preferences_sorted ps) (preferences_sorted ps')
    (hps.trans (h.trans hps'.symm))
  intro p p' hp hp' hle hge
  have hmem : p' ∈ ps := h.mem_iff.mpr (hps'.mem_iff.mp hp')
  exact List.inj_on_of_nodup_map hnodup (hps.mem_iff.mp hp) hmem (Nat.le_antisymm hle hge)

/-! ## Normal form -/

theorem normalize_ok : r.normalize parses = .ok a ↔ indexes r.passengerIndexes 20 = .ok () ∧
    indexes r.routeIndexes 20 = .ok () ∧ text r.note 1000 false = .ok () ∧
    r.sorted.checkPreferences parses = .ok () ∧ r.sorted = a := by
  simp only [CreateRequest.normalize, bind_eq_ok, pure_eq_ok]
  constructor
  · rintro ⟨⟨⟩, hpassengers, ⟨⟩, hroutes, ⟨⟩, hnote, ⟨⟩, hchecked, hsorted⟩
    exact ⟨hpassengers, hroutes, hnote, hchecked, hsorted⟩
  · rintro ⟨hpassengers, hroutes, hnote, hchecked, hsorted⟩
    exact ⟨(), hpassengers, (), hroutes, (), hnote, (), hchecked, hsorted⟩

/-- The preferences of an accepted request are in one order only. -/
theorem preferences_of_checked (hroutes : indexes r.routeIndexes 20 = .ok ())
    (hchecked : r.sorted.checkPreferences parses = .ok ()) (h : Reordered r r') :
    sortPreferences r.reissuePreferences = sortPreferences r'.reissuePreferences := by
  have hperm : (sortPreferences r.reissuePreferences).Perm r.reissuePreferences :=
    List.perm_insertionSort _ _
  unfold CreateRequest.checkPreferences at hchecked
  by_cases haction : r.sorted.action = .reissue
  · -- The routes of the preferences are the routes of the request, which are distinct.
    simp only [if_pos haction, bind_eq_ok, ensure_eq_ok, exists_const] at hchecked
    have hmap : (sortPreferences r.reissuePreferences).map (·.routeIndex) = sortIndexes r.routeIndexes :=
      hchecked.1
    simp only [indexes, ensure_eq_ok] at hroutes
    have hnodup : ((sortPreferences r.reissuePreferences).map (·.routeIndex)).Nodup := by
      rw [hmap]
      exact (List.perm_insertionSort _ _).nodup_iff.mpr hroutes.2.2.2
    exact sortPreferences_perm h.preferences ((hperm.map _).nodup_iff.mp hnodup)
  · simp only [if_neg haction, ensure_eq_ok] at hchecked
    have hnone : r.reissuePreferences = [] := by
      have hlength := hperm.length_eq
      rw [show sortPreferences r.reissuePreferences = [] from hchecked] at hlength
      exact List.length_eq_zero_iff.mp hlength.symm
    have hpreferences := h.preferences
    rw [hnone, List.nil_perm] at hpreferences
    rw [hnone, hpreferences]

theorem sorted_of_reordered (h : Reordered r r')
    (hpreferences : sortPreferences r.reissuePreferences = sortPreferences r'.reissuePreferences) :
    r'.sorted = r.sorted := by
  have hpassengers := sortIndexes_perm h.passengers
  have hroutes := sortIndexes_perm h.routes
  rw [h.rest]
  simp only [CreateRequest.sorted, hpassengers, hroutes, hpreferences]

theorem normalize_reordered (h : Reordered r r') (hr : r.normalize parses = .ok a) :
    r'.normalize parses = .ok a := by
  obtain ⟨hpassengers, hroutes, hnote, hchecked, rfl⟩ := normalize_ok.mp hr
  have hsorted := sorted_of_reordered h (preferences_of_checked hroutes hchecked h)
  have hsame : r'.note = r.note := by rw [h.rest]
  rw [normalize_ok, ← indexes_perm h.passengers, ← indexes_perm h.routes, hsame, hsorted]
  exact ⟨hpassengers, hroutes, hnote, hchecked, rfl⟩

/-- A request in normal form is in order. -/
theorem sorted_sorted (r : CreateRequest) : r.sorted.sorted = r.sorted := by
  simp only [CreateRequest.sorted, sortIndexes_again, sortPreferences_again]

theorem normalize_again (h : r.normalize parses = .ok a) : a.normalize parses = .ok a := by
  obtain ⟨hpassengers, hroutes, hnote, hchecked, rfl⟩ := normalize_ok.mp h
  have hpassengers' := indexes_perm (List.perm_insertionSort (· ≤ ·) r.passengerIndexes) 20
  have hroutes' := indexes_perm (List.perm_insertionSort (· ≤ ·) r.routeIndexes) 20
  rw [normalize_ok, sorted_sorted]
  exact ⟨hpassengers'.trans hpassengers, hroutes'.trans hroutes, hnote, hchecked, rfl⟩

/-! ## The second of two requests -/

variable {σ : Type} {d : Intake σ} {s s' : Store σ} {client : Uuid}

theorem replayOf_append {rows more : List Replay} {actor : String} {key : Uuid} {row : Replay}
    (h : replayOf rows actor key = some row) : replayOf (rows ++ more) actor key = some row := by
  unfold replayOf at *
  rw [List.find?_append, h]
  rfl

theorem saveReplay_ok {rows rows' : List Replay} {row : Replay} :
    saveReplay rows row = .ok rows' ↔ replayOf rows row.actorId row.requestKey = none ∧ rows ++ [row] = rows' := by
  simp only [saveReplay, bind_eq_ok, ensure_eq_ok, pure_eq_ok, exists_const]

theorem replay_eq {rows : List Replay} {actor : String} {key : Uuid} {row : Replay}
    (h : replayOf rows actor key = some row) :
    replay rows actor key row.requestHash = .ok (some (row.result.setField "replay" (.bool true))) := by
  unfold replay
  rw [h]
  dsimp only
  rw [show ensure (row.requestHash = row.requestHash) (conflict "IDEMPOTENCY_KEY_REUSED") = .ok () from if_pos rfl]
  rfl

theorem replayOf_saved {rows rows' : List Replay} {row : Replay} (h : saveReplay rows row = .ok rows') :
    replayOf rows' row.actorId row.requestKey = some row := by
  obtain ⟨hnone, rfl⟩ := saveReplay_ok.mp h
  unfold replayOf at *
  rw [List.find?_append, hnone, List.find?_singleton, if_pos (by simp)]
  rfl

/-- A creation answers from the table of replays, or adds its row to it. -/
theorem create_cases {reply : Created} (h : create d client r s = .ok (reply, s')) :
    ∃ input, r.normalize d.parses = .ok input ∧
      ((reply.fresh = false ∧ s'.replays = s.replays) ∨
        (reply.fresh = true ∧ saveReplay s.replays
          ⟨client.text, input.requestId, input.fingerprint d.digest, input.requestId, reply.body⟩ =
            .ok s'.replays)) := by
  unfold create at h
  simp only [bind_eq_ok] at h
  obtain ⟨input, hinput, ⟨⟩, -, answer, -, h⟩ := h
  refine ⟨input, hinput, ?_⟩
  cases answer with
  | some saved =>
    simp only [bind_eq_ok, pure_eq_ok] at h
    obtain ⟨others, -, heq⟩ := h
    cases heq
    exact .inl ⟨rfl, rfl⟩
  | none =>
    simp only [bind_eq_ok, pure_eq_ok] at h
    obtain ⟨-, -, ⟨value, others⟩, -, replays, hsave, heq⟩ := h
    cases heq
    exact .inr ⟨rfl, hsave⟩

/-- Once the row of a request is in the table, the request is answered from it. -/
theorem create_replayed {input : CreateRequest} {row : Replay} (hinput : r.normalize d.parses = .ok input)
    (hrow : replayOf s.replays client.text input.requestId = some row)
    (hhash : row.requestHash = input.fingerprint d.digest) :
    create d client r s = (do
      d.begin client s.others
      let others ← d.requestScoped client input.requestId s.others
      return (⟨false, row.result.setField "replay" (.bool true)⟩, ⟨s.replays, others⟩)) := by
  have hreplay := replay_eq hrow
  rw [hhash] at hreplay
  unfold create
  rw [hinput, ok_bind, hreplay]
  rfl

/-- The table of replays only grows. -/
theorem step_replays {request : Request σ} (h : (intake d).step s request s') :
    ∃ more, s'.replays = s.replays ++ more := by
  have hsave : ∀ {rows : List Replay} {row : Replay}, saveReplay s.replays row = .ok rows →
      ∃ more, rows = s.replays ++ more := fun h => ⟨_, (saveReplay_ok.mp h).2.symm⟩
  cases request with
  | create client input =>
    obtain ⟨reply, hcreate⟩ := h
    obtain ⟨input, -, ⟨-, hsame⟩ | ⟨-, hsaved⟩⟩ := create_cases hcreate
    · exact ⟨[], by rw [hsame, List.append_nil]⟩
    · exact hsave hsaved
  | mutate row others =>
    obtain ⟨rows, hsaved, rfl⟩ := h
    exact hsave hsaved
  | outside others =>
    cases h
    exact ⟨[], (List.append_nil _).symm⟩

theorem run_replays {t : List (Transition (Store σ) (Request σ))} (h : (intake d).Run s t s') :
    ∃ more, s'.replays = s.replays ++ more := by
  induction h with
  | nil => exact ⟨[], (List.append_nil _).symm⟩
  | snoc _ hstep ih =>
    obtain ⟨more, hmore⟩ := ih
    obtain ⟨last, hlast⟩ := step_replays hstep
    exact ⟨more ++ last, by rw [hlast, hmore, List.append_assoc]⟩

/-- Two commands of the portal that differ only in the order of their lists. -/
structure CreateCommand.Reordered (c c' : CreateCommand) : Prop where
  passengers : c.passengerIndexes.Perm c'.passengerIndexes
  routes : c.routeIndexes.Perm c'.routeIndexes
  rest : c' = { c with passengerIndexes := c'.passengerIndexes, routeIndexes := c'.routeIndexes }

theorem CreateCommand.Reordered.sorted {c c' : CreateCommand} (h : c.Reordered c') : c.sorted = c'.sorted := by
  have hpassengers := sortIndexes_perm h.passengers
  have hroutes := sortIndexes_perm h.routes
  rw [h.rest]
  simp only [CreateCommand.sorted, hpassengers, hroutes]

/-- Normalizing is canonical: it changes nothing in its own result, and requests that differ only in the
order of their lists are both refused or become one request, of one fingerprint.  Once such a request has
been created, the other one is answered from the table of replays, whatever came in between: it never
meets the conflict of a reused key, and creates nothing.  The portal's commands become one in the same
way. -/
theorem create_canonical (d : Intake σ) (r r' : CreateRequest) (hreordered : Reordered r r') :
    (∀ a, r.normalize d.parses = .ok a → a.normalize d.parses = .ok a) ∧
    (∀ a, r.normalize d.parses = .ok a ↔ r'.normalize d.parses = .ok a) ∧
    (∀ a a', r.normalize d.parses = .ok a → r'.normalize d.parses = .ok a' →
      a.fingerprint d.digest = a'.fingerprint d.digest) ∧
    (∀ client s s₁ reply, create d client r s = .ok (reply, s₁) → reply.fresh = true →
      ∀ t s₂, (intake d).Run s₁ t s₂ →
        create d client r' s₂ = (do
          d.begin client s₂.others
          let others ← d.requestScoped client r'.requestId s₂.others
          return (⟨false, reply.body.setField "replay" (.bool true)⟩, ⟨s₂.replays, others⟩))) ∧
    ∀ c c' : CreateCommand, c.Reordered c' → c.sorted.sorted = c.sorted ∧ c.sorted = c'.sorted ∧
      ∀ actor, c.sorted.fingerprint d.digest actor = c'.sorted.fingerprint d.digest actor := by
  have hsame : ∀ a, r.normalize d.parses = .ok a ↔ r'.normalize d.parses = .ok a := fun a =>
    ⟨normalize_reordered hreordered, normalize_reordered hreordered.symm⟩
  refine ⟨fun a => normalize_again, hsame, ?_, ?_, ?_⟩
  · intro a a' ha ha'
    rw [hsame, ha'] at ha
    cases ha
    rfl
  · intro client s s₁ reply hcreate hfresh t s₂ hrun
    obtain ⟨input, hinput, ⟨hreplayed, -⟩ | ⟨-, hsave⟩⟩ := create_cases hcreate
    · rw [hreplayed] at hfresh
      cases hfresh
    · obtain ⟨more, hmore⟩ := run_replays hrun
      have hrow := @replayOf_append _ more _ _ _ (replayOf_saved hsave)
      rw [← hmore] at hrow
      have hinput' := (hsame input).mp hinput
      have hid : r'.requestId = input.requestId := by
        obtain ⟨-, -, -, -, rfl⟩ := normalize_ok.mp hinput'
        rfl
      rw [hid]
      exact create_replayed hinput' hrow rfl
  · intro c c' hc
    refine ⟨?_, hc.sorted, fun actor => by rw [hc.sorted]⟩
    simp only [CreateCommand.sorted, sortIndexes_again]

/-- An intake of one client, which keeps the identifiers of the requests. -/
def sampleIntake : Intake (List Uuid) where
  digest := fun s => BitVec.ofNat 256 s.length
  parses := fun s => s.length = 10
  begin := fun client _ => ensure (client = 7) ⟨.unauthorized, "INVALID_TOKEN"⟩
  requestScoped := fun _ id ids => fetch (if id ∈ ids then some ids else none) ⟨.notFound, "NOT_FOUND"⟩
  used := fun id ids => id ∈ ids
  createRequest := fun _ r ids => .ok (.object [("requestId", .str r.requestId.text)], ids ++ [r.requestId])

def sampleCreate : CreateRequest where
  bookingReference := "STB1"
  requestId := 1
  action := .reissue
  requestType := .voluntary
  passengerIndexes := [1, 0]
  routeIndexes := [0, 1]
  reissuePreferences := [⟨1, "2026-10-02", none⟩, ⟨0, "2026-10-01", some "BG 201"⟩]
  note := none

def sampleCreateReordered : CreateRequest :=
  { sampleCreate with
    passengerIndexes := [0, 1]
    reissuePreferences := [⟨0, "2026-10-01", some "BG 201"⟩, ⟨1, "2026-10-02", none⟩] }

/-- A reissue asked for twice, its passengers and preferences the other way round: it is created once, and the
second time the saved reply is the answer. -/
theorem create_canonical_swapped :
    sampleCreateReordered.normalize sampleIntake.parses = .ok sampleCreate.sorted ∧
    ∃ reply s, create sampleIntake 7 sampleCreate ⟨[], []⟩ = .ok (reply, s) ∧ reply.fresh = true ∧
      create sampleIntake 7 sampleCreateReordered s =
        .ok (⟨false, reply.body.setField "replay" (.bool true)⟩, s) := by
  have hreordered : Reordered sampleCreate sampleCreateReordered :=
    ⟨.swap .., .refl _, .swap .., rfl⟩
  have hok : sampleCreate.normalize sampleIntake.parses = .ok sampleCreate.sorted :=
    normalize_ok.mpr ⟨by decide +kernel, by decide +kernel, by decide +kernel, by decide +kernel, rfl⟩
  obtain ⟨-, hsame, -, hreplay, -⟩ := create_canonical sampleIntake sampleCreate sampleCreateReordered hreordered
  refine ⟨(hsame _).mp hok, ?_⟩
  have hcreated : (create sampleIntake 7 sampleCreate ⟨[], []⟩).map (fun x => (x.1.fresh, x.2.others)) =
      .ok (true, [1]) := by
    decide +kernel
  obtain ⟨⟨reply, s⟩, hcreate, heq⟩ := map_eq_ok.mp hcreated
  obtain ⟨hfresh, hothers⟩ := Prod.mk.inj heq
  refine ⟨reply, s, hcreate, hfresh, ?_⟩
  rw [hreplay 7 _ s reply hcreate hfresh [] s (.nil s), hothers]
  show Except.ok _ = _
  rw [← hothers]

end ShaponTravels.Wallet.TicketManagement
