import ShaponTravels.Identity.Journals

/-!
# Invited — what the journal of invitations keeps

An invitation is written at the provider in two lanes: its issue and its revocation.  The attempts
share one table, and a lane is the part of it with the kinds of the lane.
-/

namespace ShaponTravels.Identity

open Library
open Library.Fenced (Phase)

variable {p : Platform} {ev : Event} {now : Int}

/-! ## Lanes -/

/-- What the state of an invitation says about the attempts of a lane. -/
def InvitationState.phase (revoke : Bool) (s : InvitationState) : Phase Uuid :=
  match revoke, s with
  | false, .prepared | false, .cancelled => .idle
  | false, .issuing l => .writing l.token
  | false, .observingIssue l => .reading l.token
  | true, .revoking l => .writing l.token
  | true, .observingRevoke l => .reading l.token
  | true, .prepared | true, .issuing _ | true, .issueUnknown | true, .observingIssue _ | true, .pending
  | true, .accepted _ | true, .cancelled => .idle
  | _, _ => .closed

/-- The writes of a lane a row counts. -/
def Invitation.writes (revoke : Bool) (r : Invitation) : Nat :=
  if revoke then r.revokeAttempts else r.issueAttempts

/-- The attempt is on the lane. -/
def InvitationAttempt.on (revoke : Bool) (a : InvitationAttempt) : Option Attempt :=
  match revoke, a.kind with
  | false, .issue => some ⟨a.claimToken, a.invitationId, a.fence, .dispatch, a.outcome⟩
  | false, .observeIssue => some ⟨a.claimToken, a.invitationId, a.fence, .reconcile, a.outcome⟩
  | true, .revoke => some ⟨a.claimToken, a.invitationId, a.fence, .dispatch, a.outcome⟩
  | true, .observeRevoke => some ⟨a.claimToken, a.invitationId, a.fence, .reconcile, a.outcome⟩
  | _, _ => none

/-- The attempts of a lane. -/
def lane (revoke : Bool) (attempts : List InvitationAttempt) : List Attempt :=
  attempts.filterMap (InvitationAttempt.on revoke)

section Lane

variable {attempts : List InvitationAttempt} {revoke : Bool} {a : Attempt}

theorem on_token {x : InvitationAttempt} (h : x.on revoke = some a) :
    a.claimToken = x.claimToken ∧ a.parentId = x.invitationId ∧ a.outcome = x.outcome := by
  rw [InvitationAttempt.on.eq_def] at h
  split at h <;> cases h <;> exact ⟨rfl, rfl, rfl⟩

/-- An attempt is on one lane only. -/
theorem on_unique {x : InvitationAttempt} (h : x.on revoke = some a) : x.on (!revoke) = none := by
  cases revoke <;> cases hkind : x.kind <;> simp [InvitationAttempt.on, hkind] at h ⊢

theorem lane_concat_on (attempts : List InvitationAttempt) {x : InvitationAttempt}
    (h : x.on revoke = some a) : lane revoke (attempts ++ [x]) = lane revoke attempts ++ [a] ∧
      lane (!revoke) (attempts ++ [x]) = lane (!revoke) attempts := by
  simp [lane, List.filterMap_append, h, on_unique h]

/-- An outcome is recorded on every lane that the attempt is on. -/
theorem lane_record (token : Uuid) (outcome : AttemptOutcome) (e : Option InvitationEvidence) :
    lane revoke (Library.modify InvitationAttempt.claimToken token (fun a => if a.outcome = none then
      { a with outcome := some outcome, providerState := e } else a) attempts) =
      recordOutcome token outcome (lane revoke attempts) := by
  simp only [lane, recordOutcome, Library.modify, List.filterMap_map, List.map_filterMap]
  congr 1
  funext x
  simp only [Function.comp]
  by_cases htoken : x.claimToken = token
  · by_cases hopen : x.outcome = none
    · cases revoke <;> cases hkind : x.kind <;>
        simp [InvitationAttempt.on, hkind, htoken, hopen]
    · cases revoke <;> cases hkind : x.kind <;>
        simp [InvitationAttempt.on, hkind, htoken, hopen]
  · cases revoke <;> cases hkind : x.kind <;> simp [InvitationAttempt.on, hkind, htoken]

/-- No other lane has an attempt under the token of one on this lane. -/
theorem lane_other (htokens : KeyUnique InvitationAttempt.claimToken attempts) (ha : a ∈ lane revoke attempts) :
    ∀ a' ∈ lane (!revoke) attempts, a'.claimToken ≠ a.claimToken := by
  intro a' ha' heq
  obtain ⟨x, hx, hon⟩ := List.mem_filterMap.mp ha
  obtain ⟨x', hx', hon'⟩ := List.mem_filterMap.mp ha'
  have htoken : x'.claimToken = x.claimToken := by
    rw [← (on_token hon').1, ← (on_token hon).1, heq]
  obtain rfl := htokens.eq_of_key hx' hx htoken
  rw [on_unique hon] at hon'
  cases hon'

theorem lane_fresh {token : Uuid} (h : ∀ x ∈ attempts, x.claimToken ≠ token) :
    ∀ a ∈ lane revoke attempts, a.claimToken ≠ token := by
  intro a ha heq
  obtain ⟨x, hx, hon⟩ := List.mem_filterMap.mp ha
  exact h x hx ((on_token hon).1.symm.trans heq)

end Lane

/-! ## Rows -/

/-- How an invitation goes on. -/
structure Invitation.Next (ev : Event) (r r' : Invitation) : Prop where
  fixed : r'.fixed = r.fixed
  requested : r.revocationRequested → r'.revocationRequested
  ended : r.state.isOpen = false → r' = r
  version : r' = r ∨ r.version < r'.version
  accepted : ∀ subject, r'.state = .accepted subject → r.state = .accepted subject ∨
    r.revocationRequested = false ∧ ∃ o result draw now, ev = .accept o result draw now ∧ o.id = r.id ∧
      o.subject = subject

theorem Invitation.Next.refl (r : Invitation) : r.Next ev r :=
  ⟨rfl, fun h => h, fun _ => rfl, .inl rfl, fun _ h => .inl h⟩

theorem Invitation.Next.trans {r r' r'' : Invitation} (h : r.Next ev r') (h' : r'.Next ev r'') :
    r.Next ev r'' := by
  refine ⟨h'.fixed.trans h.fixed, fun hr => h'.requested (h.requested hr), fun hended => ?_, ?_,
    fun subject hsubject => ?_⟩
  · obtain rfl := h.ended hended
    exact h'.ended hended
  · rcases h.version with rfl | hlt
    · exact h'.version
    · rcases h'.version with rfl | hlt'
      · exact .inr hlt
      · exact .inr (hlt.trans hlt')
  · rcases h'.accepted subject hsubject with hbefore | ⟨hrequested, o, result, draw, now, hev, hid, hs⟩
    · exact h.accepted subject hbefore
    · refine .inr ⟨?_, o, result, draw, now, hev, hid.trans (Invitation.of_fixed h.fixed).1, hs⟩
      by_contra hnot
      rw [h.requested (by simpa using hnot)] at hrequested
      cases hrequested

namespace Invitations

/-- Both lanes agree with the rows, and no two rows are about one new user. -/
structure Sound (i : Invitations) : Prop where
  tokens : KeyUnique InvitationAttempt.claimToken i.attempts
  lanes : ∀ revoke, Lanes Invitation.id (fun r => r.state.phase revoke) (Invitation.writes revoke) i.rows
    (lane revoke i.attempts)
  users : KeyUnique Invitation.userId i.rows
  subUsers : ∀ r ∈ i.rows, r.agencyId.isSome → r.role = .b2bSub

theorem sound_empty : Sound ⟨[], [], []⟩ :=
  ⟨.nil, fun _ => .empty, .nil, fun _ h => absurd h List.not_mem_nil⟩

variable {i i' : Invitations}

theorem Sound.keys (h : i.Sound) : KeyUnique Invitation.id i.rows := (h.lanes false).keys

/-- The new row of an invitation starts with two empty logs. -/
theorem Sound.insert (h : i.Sound) {r : Invitation} (hid : ∀ r' ∈ i.rows, r'.id ≠ r.id)
    (huser : ∀ r' ∈ i.rows, r'.userId ≠ r.userId) (hstate : r.state = .prepared)
    (hissue : r.issueAttempts = 0) (hrevoke : r.revokeAttempts = 0)
    (hagency : r.agencyId.isSome → r.role = .b2bSub) : Sound { i with rows := i.rows ++ [r] } := by
  refine ⟨h.tokens, fun revoke => (h.lanes revoke).insert hid ?_ ?_, keyUnique_concat.mpr ⟨h.users, huser⟩,
    fun r' hr' => ?_⟩
  · rw [hstate]
    cases revoke <;> rfl
  · cases revoke
    · exact hissue
    · exact hrevoke
  · rcases List.mem_append.mp hr' with hr' | hr'
    · exact h.subUsers r' hr'
    · rw [List.mem_singleton.mp hr']
      exact hagency

section Rewrite

variable {r : Invitation} {f : Invitation → Invitation} (h : i.Sound) (hr : r ∈ i.rows)
  (hfixed : ∀ r, (f r).fixed = r.fixed) (hrows : i'.rows = modify Invitation.id r.id f i.rows)

include h hfixed hrows

theorem Sound.rewrite (htokens : KeyUnique InvitationAttempt.claimToken i'.attempts)
    (hlanes : ∀ revoke, Lanes Invitation.id (fun r => r.state.phase revoke) (Invitation.writes revoke)
      (modify Invitation.id r.id f i.rows) (lane revoke i'.attempts)) : i'.Sound := by
  refine ⟨htokens, fun revoke => by rw [hrows]; exact hlanes revoke, ?_, fun r' hr' => ?_⟩
  · rw [hrows]
    show (List.map Invitation.userId (modify Invitation.id r.id f i.rows)).Nodup
    rw [map_modify fun r => (Invitation.of_fixed (hfixed r)).2.2.1]
    exact h.users
  · rw [hrows] at hr'
    rcases modify_cases hr' with ⟨hmem, -⟩ | ⟨r, hr, -, rfl⟩
    · exact h.subUsers r' hmem
    · obtain ⟨-, -, -, -, -, hrole, hagency, -⟩ := Invitation.of_fixed (hfixed r)
      rw [hrole, hagency]
      exact h.subUsers r hr

include hr

/-- A change of a row that neither lane sees. -/
theorem Sound.relabel (hattempts : i'.attempts = i.attempts)
    (hself : ∀ revoke, (f r).writes revoke = r.writes revoke ∧
      ((f r).state.phase revoke = r.state.phase revoke ∨
        r.state.phase revoke = .idle ∧ (f r).state.phase revoke = .closed)) : i'.Sound := by
  refine h.rewrite hfixed hrows (by rw [hattempts]; exact h.tokens) fun revoke => ?_
  rw [hattempts]
  refine (h.lanes revoke).relabel (fun r => (Invitation.of_fixed (hfixed r)).1) fun r' hr' hid => ?_
  obtain rfl := h.keys.eq_of_key hr' hr hid
  exact hself revoke

/-- The open attempt of a lane ends. -/
theorem Sound.settle (revoke : Bool) {token : Uuid} {outcome : AttemptOutcome}
    {e : Option InvitationEvidence}
    (hattempts : i'.attempts = (i.recordAttempt token outcome e).attempts)
    (hphase : r.state.phase revoke = .writing token ∨ r.state.phase revoke = .reading token)
    (hwrites : ∀ revoke, (f r).writes revoke = r.writes revoke)
    (hself : (f r).state.phase revoke = .closed ∨ (f r).state.phase revoke = .idle ∧
      r.state.phase revoke = .writing token ∧ outcome = .notSent)
    (hother : (f r).state.phase (!revoke) = r.state.phase (!revoke) ∨
      r.state.phase (!revoke) = .idle ∧ (f r).state.phase (!revoke) = .closed) : i'.Sound := by
  have hkey : ∀ r, (f r).id = r.id := fun r => (Invitation.of_fixed (hfixed r)).1
  obtain ⟨a, ha, rfl, -, -⟩ := (h.lanes revoke).open_parent hr hphase
  refine h.rewrite hfixed hrows ?_ fun b => ?_
  · rw [hattempts]
    exact h.tokens.modify fun x => by split <;> rfl
  · rw [hattempts, Invitations.recordAttempt, lane_record]
    by_cases hb : b = revoke
    · subst hb
      exact (h.lanes b).settle hr hkey (hwrites b) hphase hself
    · obtain rfl : b = !revoke := by cases b <;> cases revoke <;> simp_all
      have hsame : recordOutcome a.claimToken outcome (lane (!revoke) i.attempts) =
          lane (!revoke) i.attempts := modify_of_absent (lane_other h.tokens ha)
      rw [hsame]
      refine (h.lanes (!revoke)).relabel hkey fun r' hr' hid => ?_
      obtain rfl := h.keys.eq_of_key hr' hr hid
      exact ⟨hwrites _, hother⟩

/-- A claim opens an attempt on a lane. -/
theorem Sound.claim (revoke : Bool) {x : InvitationAttempt} {k : AttemptKind}
    (hattempts : i'.attempts = i.attempts ++ [x])
    (hon : x.on revoke = some ⟨x.claimToken, r.id, x.fence, k, none⟩)
    (hfresh : ∀ a ∈ i.attempts, a.claimToken ≠ x.claimToken)
    (hself : (k = .dispatch ∧ r.state.phase revoke = .idle ∧ r.writes revoke < 5 ∧
        (f r).state.phase revoke = .writing x.claimToken ∧ (f r).writes revoke = r.writes revoke + 1) ∨
      (k = .reconcile ∧ r.state.phase revoke = .closed ∧
        (f r).state.phase revoke = .reading x.claimToken ∧ (f r).writes revoke = r.writes revoke))
    (hother : (f r).writes (!revoke) = r.writes (!revoke) ∧
      (f r).state.phase (!revoke) = r.state.phase (!revoke)) : i'.Sound := by
  have hkey : ∀ r, (f r).id = r.id := fun r => (Invitation.of_fixed (hfixed r)).1
  obtain ⟨hlane, hlane'⟩ := lane_concat_on i.attempts hon
  refine h.rewrite hfixed hrows ?_ fun b => ?_
  · rw [hattempts]
    exact keyUnique_concat.mpr ⟨h.tokens, hfresh⟩
  · rw [hattempts]
    by_cases hb : b = revoke
    · subst hb
      rw [hlane]
      exact (h.lanes b).claim hr hkey (lane_fresh hfresh) hself
    · obtain rfl : b = !revoke := by cases b <;> cases revoke <;> simp_all
      rw [hlane']
      refine (h.lanes (!revoke)).relabel hkey fun r' hr' hid => ?_
      obtain rfl := h.keys.eq_of_key hr' hr hid
      exact ⟨hother.1, .inl hother.2⟩

end Rewrite

@[simp] theorem blockMail_rows (i : Invitations) (id : Uuid) : (i.blockMail id).rows = i.rows := rfl

@[simp] theorem blockMail_attempts (i : Invitations) (id : Uuid) :
    (i.blockMail id).attempts = i.attempts := rfl

@[simp] theorem settleMail_rows (i : Invitations) (c : InvitationClaim) (r : Invitation)
    (proof : Option Snapshot) (state : InvitationState) : (i.settleMail c r proof state).rows = i.rows := by
  simp only [settleMail, insertIntent]
  split <;> split <;> (try split) <;> rfl

@[simp] theorem settleMail_attempts (i : Invitations) (c : InvitationClaim) (r : Invitation)
    (proof : Option Snapshot) (state : InvitationState) :
    (i.settleMail c r proof state).attempts = i.attempts := by
  simp only [settleMail, insertIntent]
  split <;> split <;> (try split) <;> rfl

theorem holds_lease {r : Invitation} {c : InvitationClaim} (h : c.holds r now) :
    r.fence = c.fence ∧ ∃ l, l.token = c.token ∧ now < l.leaseUntil ∧
      r.state = claimedState c.revoke c.observe l := by
  simp only [InvitationClaim.holds, Bool.and_eq_true, decide_eq_true_eq, Option.any_eq_true] at h
  obtain ⟨hfence, l, -, ⟨htoken, hlive⟩, hstate⟩ := h
  exact ⟨hfence, l, htoken, hlive, hstate⟩

/-- Evidence a claim accepts: a revocation is proved by its end only. -/
theorem proof_ok {c : InvitationClaim} {result : InvitationResult} {s : Snapshot}
    (h : c.proof p result = some s) : result = .confirmed s ∧ s.valid p c.input ∧
      (c.revoke → s.state = .revoked ∨ s.state = .expired) := by
  rw [InvitationClaim.proof.eq_def] at h
  split at h
  · split at h
    · rename_i hvalid
      cases h
      exact ⟨rfl, hvalid⟩
    · cases h
  · cases h

theorem outcome_notSent {c : InvitationClaim} {proof : Option Snapshot} {result : InvitationResult}
    (h : c.outcome proof result = .notSent) : c.observe = false := by
  rw [InvitationClaim.outcome] at h
  split at h
  · cases h
  · split at h
    · rename_i hnot
      simpa using hnot.2
    · cases h

/-- Where a result leaves an invitation. -/
theorem resultState_cases (r : Invitation) (c : InvitationClaim) (result : InvitationResult)
    {state : InvitationState} (hstate : state =
      (invitationResultState r c.revoke (c.proof p result) (c.outcome (c.proof p result) result)).1) :
    (∃ s, c.proof p result = some s ∧ state = evidenceState s.state) ∨
    c.outcome (c.proof p result) result = .notSent ∧
      (if c.revoke then state = .pending else state = .cancelled ∨ state = .prepared) ∨
    state = if c.revoke then .revokeUnknown else .issueUnknown := by
  cases hproof : c.proof p result with
  | some s =>
    rw [hproof] at hstate
    exact .inl ⟨s, rfl, hstate⟩
  | none =>
    rw [hproof] at hstate
    cases houtcome : c.outcome none result with
    | notSent =>
      rw [houtcome, invitationResultState] at hstate
      cases hrevoke : c.revoke with
      | true =>
        rw [hrevoke, if_pos rfl] at hstate
        split at hstate
        · exact .inr (.inr hstate)
        · exact .inr (.inl ⟨rfl, hstate⟩)
      | false =>
        rw [hrevoke, if_neg (by decide)] at hstate
        split at hstate
        · exact .inr (.inl ⟨rfl, .inl hstate⟩)
        split at hstate
        · exact .inr (.inl ⟨rfl, .inl hstate⟩)
        · exact .inr (.inl ⟨rfl, .inr hstate⟩)
    | confirmed | unknown =>
      rw [houtcome] at hstate
      exact .inr (.inr hstate)

theorem recover_cases (i : Invitations) (now : Int) (r : Invitation) : i.recover now r = i ∨
    ∃ l, r.state.lease? = some l ∧ l.leaseUntil ≤ now ∧
      i.recover now r = (i.update r.id fun r => { r with
        state := r.state.expiredTo
        errorCode := some "IDENTITY_PROVIDER_OUTCOME_UNKNOWN" }).recordAttempt l.token .unknown none := by
  rw [Invitations.recover]
  split
  · exact .inl rfl
  · rename_i l hlease
    split
    · rename_i hexpired
      exact .inr ⟨l, hlease, hexpired, rfl⟩
    · exact .inl rfl

/-- A lease is held on one lane. -/
theorem phase_of_lease {s : InvitationState} {l : Lease} (h : s.lease? = some l) :
    ∃ revoke, (s.phase revoke = .writing l.token ∨ s.phase revoke = .reading l.token) ∧
      s.expiredTo.phase revoke = .closed ∧ s.expiredTo.phase (!revoke) = s.phase (!revoke) ∧ s.isOpen := by
  cases s with
  | issuing l' =>
    cases h
    exact ⟨false, .inl rfl, rfl, rfl, rfl⟩
  | observingIssue l' =>
    cases h
    exact ⟨false, .inr rfl, rfl, rfl, rfl⟩
  | revoking l' =>
    cases h
    exact ⟨true, .inl rfl, rfl, rfl, rfl⟩
  | observingRevoke l' =>
    cases h
    exact ⟨true, .inr rfl, rfl, rfl, rfl⟩
  | _ => cases h

/-- The rows a claim is granted on. -/
theorem claimed_state {r : Invitation} {revoke observe : Bool} (h : r.claimed observe = some revoke) :
    (observe = false → r.revocationRequested = revoke) ∧
      r.state = (match observe, revoke with
        | false, false => .prepared
        | false, true => .pending
        | true, false => .issueUnknown
        | true, true => .revokeUnknown) ∧ r.state.isOpen := by
  rw [Invitation.claimed.eq_def] at h
  split at h <;> cases h
  all_goals simp_all [InvitationState.isOpen]

/-- Where a result leaves both lanes. -/
theorem finished_phase {r : Invitation} {c : InvitationClaim} {result : InvitationResult}
    (h : c.holds r now) :
    (r.state.phase c.revoke = .writing c.token ∨ r.state.phase c.revoke = .reading c.token) ∧
      ((invitationResultState r c.revoke (c.proof p result)
          (c.outcome (c.proof p result) result)).1.phase c.revoke = .closed ∨
        (invitationResultState r c.revoke (c.proof p result)
          (c.outcome (c.proof p result) result)).1.phase c.revoke = .idle ∧
        r.state.phase c.revoke = .writing c.token ∧ c.outcome (c.proof p result) result = .notSent) ∧
      ((invitationResultState r c.revoke (c.proof p result)
          (c.outcome (c.proof p result) result)).1.phase (!c.revoke) = r.state.phase (!c.revoke) ∨
        r.state.phase (!c.revoke) = .idle ∧
        (invitationResultState r c.revoke (c.proof p result)
          (c.outcome (c.proof p result) result)).1.phase (!c.revoke) = .closed) := by
  obtain ⟨-, l, htoken, -, hstate⟩ := holds_lease h
  generalize hnew : (invitationResultState r c.revoke (c.proof p result)
    (c.outcome (c.proof p result) result)).1 = state
  rcases resultState_cases r c result hnew.symm with ⟨s, hproof, hevidence⟩ | ⟨hspent, hnot⟩ | hunknown
  · obtain ⟨-, -, hrevoke⟩ := proof_ok hproof
    rw [hstate, ← htoken, hevidence]
    cases hr : c.revoke with
    | false => cases c.observe <;> cases s.state <;> simp [claimedState, InvitationState.phase, evidenceState]
    | true =>
      rcases hrevoke hr with he | he <;> rw [he] <;> cases c.observe <;>
        simp [claimedState, InvitationState.phase, evidenceState]
  · rw [hspent, hstate, ← htoken, outcome_notSent hspent]
    cases hr : c.revoke with
    | false =>
      rw [hr, if_neg (by decide)] at hnot
      rcases hnot with rfl | rfl <;> simp [claimedState, InvitationState.phase]
    | true =>
      rw [hr, if_pos rfl] at hnot
      rw [hnot]
      simp [claimedState, InvitationState.phase]
  · rw [hstate, ← htoken, hunknown]
    cases c.revoke <;> cases c.observe <;> simp [claimedState, InvitationState.phase]

theorem Move.sound {i i' : Invitations} (h : Move p ev i i') (hsound : i.Sound) : i'.Sound := by
  cases h with
  | insert r hid huser hstate hissue hrevoke hrequested hagency =>
    exact hsound.insert hid huser hstate hissue hrevoke hagency
  | recover now r hr =>
    obtain hsame | ⟨l, hlease, -, hrecover⟩ := recover_cases i now r
    · rw [hsame]
      exact hsound
    · obtain ⟨revoke, hphase, hclosed, hother, -⟩ := phase_of_lease hlease
      rw [hrecover]
      exact hsound.settle hr (f := fun r => { r with
        version := r.version + 1
        state := r.state.expiredTo
        errorCode := some "IDENTITY_PROVIDER_OUTCOME_UNKNOWN" }) (fun _ => rfl) rfl revoke rfl hphase
        (fun b => by cases b <;> rfl) (.inl hclosed) (.inl hother)
  -- a request to revoke cancels what was not sent, and is kept for the worker otherwise
  | revoke r hr hopen hrequested =>
    refine hsound.relabel hr (f := fun r => { r with
      version := r.version + 1
      revocationRequested := true
      state := if r.state = .prepared then .cancelled else r.state }) (fun _ => rfl) rfl rfl fun revoke => ?_
    refine ⟨by cases revoke <;> rfl, .inl ?_⟩
    show InvitationState.phase revoke (if r.state = .prepared then .cancelled else r.state) = _
    split
    · rename_i hstate
      rw [hstate]
      cases revoke <;> rfl
    · rfl
  -- a dispatch counts an attempt and a reconciliation none, for an issue and a revocation alike
  | take now r revoke observe token hr hclaimed hlimit hfresh =>
    refine hsound.claim hr (f := fun r' => { r' with
      version := r'.version + 1
      state := claimedState revoke observe ⟨token, now + 30000000⟩
      fence := r.fence + 1
      issueAttempts := if claimedKind revoke observe = .issue then r'.issueAttempts + 1
        else r'.issueAttempts
      revokeAttempts := if claimedKind revoke observe = .revoke then r'.revokeAttempts + 1
        else r'.revokeAttempts
      errorCode := none }) (fun _ => rfl) rfl revoke
      (x := ⟨token, r.id, r.fence + 1, claimedKind revoke observe, none, none⟩)
      (k := if observe then .reconcile else .dispatch) rfl ?_ hfresh ?_ ?_
    · cases revoke <;> cases observe <;> rfl
    · have hstate := claimed_state hclaimed
      cases observe with
      | false =>
        have hlt := hlimit rfl
        cases revoke with
        | false => exact .inl ⟨rfl, by rw [hstate.2.1]; rfl, hlt, rfl, rfl⟩
        | true => exact .inl ⟨rfl, by rw [hstate.2.1]; rfl, hlt, rfl, rfl⟩
      | true =>
        cases revoke with
        | false => exact .inr ⟨rfl, by rw [hstate.2.1]; rfl, rfl, rfl⟩
        | true => exact .inr ⟨rfl, by rw [hstate.2.1]; rfl, rfl, rfl⟩
    · obtain ⟨-, hstate, -⟩ := claimed_state hclaimed
      cases observe <;> cases revoke <;> exact ⟨rfl, by rw [hstate]; rfl⟩
  | finish now r c result hr hid hholds hev =>
    obtain ⟨hphase, hself, hother⟩ := @finished_phase p _ _ _ result hholds
    refine hsound.settle hr (f := fun r' => { r' with
      version := r'.version + 1
      state := (invitationResultState r c.revoke (c.proof p result) (c.outcome (c.proof p result) result)).1
      providerId := r.providerId.or ((c.proof p result).map Snapshot.invitationId)
      errorCode :=
        (invitationResultState r c.revoke (c.proof p result) (c.outcome (c.proof p result) result)).2
      nextAttemptAt := if c.outcome (c.proof p result) result = .notSent then now + 30000000 else now })
      (fun _ => rfl) (settleMail_rows _ _ _ _ _) c.revoke (settleMail_attempts _ _ _ _ _) hphase
      (fun b => by cases b <;> rfl) hself hother
  | accept r subject hr hstate hrequested hunique hev =>
    exact hsound.relabel hr (f := fun r => { r with version := r.version + 1, state := .accepted subject })
      (fun _ => rfl) rfl rfl fun revoke => ⟨by cases revoke <;> rfl, .inl (by
        rw [hstate]
        cases revoke <;> rfl)⟩
  | refresh r e hr hstate hended =>
    refine hsound.relabel hr (f := fun r => { r with version := r.version + 1, state := evidenceState e })
      (fun _ => rfl) rfl rfl fun revoke => ⟨by cases revoke <;> rfl, ?_⟩
    rw [hstate]
    rcases hended with rfl | rfl
    · cases revoke
      · exact .inl rfl
      · exact .inr ⟨rfl, rfl⟩
    · cases revoke
      · exact .inl rfl
      · exact .inr ⟨rfl, rfl⟩

/-- What an event leaves of the invitations. -/
abbrev Extends (ev : Event) (i i' : Invitations) : Prop :=
  Follows (Invitation.Next ev) (fun r => r.state = .prepared) i.rows i'.rows

theorem extends_of_rows {i i' i'' : Invitations} (h : i'.rows = i''.rows) (hext : Extends ev i i'') :
    Extends ev i i' := by
  rw [Extends, h]
  exact hext

/-- An update of a row that is not accepted. -/
theorem next_of_update {r r' : Invitation} (hfixed : r'.fixed = r.fixed)
    (hversion : r'.version = r.version + 1) (hrequested : r.revocationRequested → r'.revocationRequested)
    (hopen : r.state.isOpen) (haccepted : ∀ subject, r'.state ≠ .accepted subject) : r.Next ev r' :=
  ⟨hfixed, hrequested, fun hended => absurd hopen (by simp [hended]), .inr (by omega),
    fun subject h => absurd h (haccepted subject)⟩

theorem expiredTo_ne (s : InvitationState) (subject : String) : s.expiredTo ≠ .accepted subject := by
  cases s <;> simp [InvitationState.expiredTo]

/-- No result accepts an invitation. -/
theorem resultState_ne {r : Invitation} {c : InvitationClaim} {result : InvitationResult}
    (subject : String) : (invitationResultState r c.revoke (c.proof p result)
      (c.outcome (c.proof p result) result)).1 ≠ .accepted subject := by
  intro h
  rcases resultState_cases r c result h.symm with ⟨s, -, hstate⟩ | ⟨-, hnot⟩ | hunknown
  · cases hs : s.state <;> rw [hs] at hstate <;> cases hstate
  · split at hnot
    · cases hnot
    · rcases hnot with hnot | hnot <;> cases hnot
  · split at hunknown <;> cases hunknown

theorem Move.extends {i i' : Invitations} (h : Move p ev i i') (hsound : i.Sound) : Extends ev i i' := by
  have hrow : ∀ {r : Invitation}, r ∈ i.rows → ∀ r' ∈ i.rows, r'.id = r.id → r' = r :=
    fun hr r' hr' hid => hsound.keys.eq_of_key hr' hr hid
  cases h with
  | insert r hid huser hstate hissue hrevoke hrequested hagency => exact .concat .refl hstate
  | recover now r hr =>
    obtain hsame | ⟨l, hlease, -, hrecover⟩ := recover_cases i now r
    · rw [hsame]
      exact .refl .refl _
    · rw [hrecover]
      refine .modify .refl fun r' hr' hid => ?_
      obtain rfl := hrow hr r' hr' hid
      obtain ⟨-, -, -, -, hopen⟩ := phase_of_lease hlease
      exact next_of_update rfl rfl (fun h => h) hopen (expiredTo_ne r'.state)
  | revoke r hr hopen hrequested =>
    refine .modify .refl fun r' hr' hid => ?_
    obtain rfl := hrow hr r' hr' hid
    refine next_of_update rfl rfl (fun _ => rfl) hopen fun subject h => ?_
    have h : (if r'.state = .prepared then InvitationState.cancelled else r'.state) = .accepted subject := h
    split at h
    · cases h
    · rw [h] at hopen
      cases hopen
  | take now r revoke observe token hr hclaimed hlimit hfresh =>
    refine .modify .refl fun r' hr' hid => ?_
    obtain rfl := hrow hr r' hr' hid
    obtain ⟨-, -, hopen⟩ := claimed_state hclaimed
    refine next_of_update rfl rfl (fun h => h) hopen fun subject h => ?_
    cases revoke <;> cases observe <;> cases h
  | finish now r c result hr hid hholds hev =>
    obtain ⟨-, l, -, -, hstate⟩ := holds_lease hholds
    refine extends_of_rows (settleMail_rows _ _ _ _ _) (.modify .refl fun r' hr' hrid => ?_)
    obtain rfl := hrow hr r' hr' hrid
    refine next_of_update rfl rfl (fun h => h) ?_ fun subject => resultState_ne subject
    rw [hstate]
    cases c.revoke <;> cases c.observe <;> rfl
  | accept r subject hr hstate hrequested hunique hev =>
    refine .modify .refl fun r' hr' hid => ?_
    obtain rfl := hrow hr r' hr' hid
    refine ⟨rfl, fun h => h, fun hended => ?_, .inr (by simp), fun subject' h => .inr ⟨hrequested, ?_⟩⟩
    · rw [hstate] at hended
      cases hended
    · cases h
      exact hev
  | refresh r e hr hstate hended =>
    refine .modify .refl fun r' hr' hid => ?_
    obtain rfl := hrow hr r' hr' hid
    refine next_of_update rfl rfl (fun h => h) (by rw [hstate]; rfl) fun subject h => ?_
    rcases hended with rfl | rfl <;> cases h

theorem Moves.sound {i i' : Invitations} (h : Moves p ev i i') (hsound : i.Sound) : i'.Sound := by
  induction h with
  | refl => exact hsound
  | tail _ hmove ih => exact hmove.sound ih

theorem Moves.extends {i i' : Invitations} (h : Moves p ev i i') (hsound : i.Sound) :
    Extends ev i i' := by
  induction h with
  | refl => exact .refl .refl _
  | tail hmoves hmove ih =>
    exact ih.trans (fun _ _ _ => Invitation.Next.trans) (hmove.extends (Moves.sound hmoves hsound))

end Invitations

end ShaponTravels.Identity
