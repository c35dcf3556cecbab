import ShaponTravels.Library.Table

/-!
# Outbox — work handed to workers after a commit

A transaction commits a reservation and leaves a job in the outbox.  A worker picks the job up
and sends it; the answer comes back once, or the worker dies with it.  `sent` is the history of
everything that ever left, so "at most once" is a statement about a list.
-/

namespace Library

structure Outbox (ι : Type) where
  waiting : List ι
  inFlight : List ι
  sent : List ι

namespace Outbox

variable {ι κ : Type}

def empty : Outbox ι := ⟨[], [], []⟩

/-- A commit leaves a job. -/
def post (o : Outbox ι) (j : ι) : Outbox ι := { o with waiting := o.waiting ++ [j] }

/-- A worker sends a job. -/
def send [DecidableEq ι] (o : Outbox ι) (j : ι) : Outbox ι where
  waiting := o.waiting.erase j
  inFlight := o.inFlight ++ [j]
  sent := o.sent ++ [j]

/-- A job that was sent is answered. -/
def answer [DecidableEq ι] (o : Outbox ι) (j : ι) : Outbox ι := { o with inFlight := o.inFlight.erase j }

/-- A worker dies with its job. -/
def lose [DecidableEq ι] (o : Outbox ι) (j : ι) : Outbox ι :=
  { o with waiting := o.waiting.erase j, inFlight := o.inFlight.erase j }

/-- The jobs that may still be answered. -/
def outstanding (o : Outbox ι) : List ι := o.waiting ++ o.inFlight

/-- The jobs that were ever posted and not lost before they were sent. -/
def jobs (o : Outbox ι) : List ι := o.waiting ++ o.sent

/-- No two jobs share a key, and what is in flight was sent. -/
structure Once (key : ι → κ) (o : Outbox ι) : Prop where
  unique : KeyUnique key o.jobs
  sent : o.inFlight.Sublist o.sent

variable {key : ι → κ} {o : Outbox ι} {j : ι}

theorem once_empty (key : ι → κ) : Once key (empty : Outbox ι) :=
  ⟨List.nodup_nil, List.Sublist.refl []⟩

theorem mem_jobs_post {j' : ι} : j' ∈ (o.post j).jobs ↔ j' ∈ o.jobs ∨ j' = j := by
  simp only [jobs, post, List.mem_append, List.mem_singleton]
  tauto

theorem mem_outstanding_post {j' : ι} :
    j' ∈ (o.post j).outstanding ↔ j' ∈ o.outstanding ∨ j' = j := by
  simp only [outstanding, post, List.mem_append, List.mem_singleton]
  tauto

theorem Once.post (h : Once key o) (hnew : ∀ j' ∈ o.jobs, key j' ≠ key j) :
    Once key (o.post j) := by
  refine ⟨?_, h.sent⟩
  have hperm : (o.post j).jobs.Perm (o.jobs ++ [j]) := by
    show ((o.waiting ++ [j]) ++ o.sent).Perm ((o.waiting ++ o.sent) ++ [j])
    rw [List.append_assoc, List.append_assoc]
    exact (List.Perm.refl _).append List.perm_append_comm
  rw [KeyUnique, (hperm.map key).nodup_iff]
  exact keyUnique_concat.mpr ⟨h.unique, hnew⟩

theorem Once.sent_unique (h : Once key o) : KeyUnique key o.sent :=
  h.unique.sublist ((List.sublist_append_right _ _).map key)

theorem Once.outstanding_unique (h : Once key o) : KeyUnique key o.outstanding :=
  h.unique.sublist (((List.Sublist.refl _).append h.sent).map key)

theorem Once.mem_jobs_of_outstanding (h : Once key o) {j' : ι} (hj : j' ∈ o.outstanding) :
    j' ∈ o.jobs :=
  ((List.Sublist.refl _).append h.sent).subset hj

section Sending

variable [DecidableEq ι]

/-- Sending moves a job inside the outbox. -/
theorem jobs_send_perm (h : j ∈ o.waiting) : (o.send j).jobs.Perm o.jobs := by
  have herase : (j :: o.waiting.erase j).Perm o.waiting := (List.perm_cons_erase h).symm
  calc (o.waiting.erase j ++ (o.sent ++ [j]))
      = (o.waiting.erase j ++ o.sent) ++ [j] := (List.append_assoc ..).symm
    _ |>.Perm (j :: (o.waiting.erase j ++ o.sent)) := List.perm_append_singleton _ _
    _ |>.Perm (o.waiting ++ o.sent) := herase.append_right o.sent

theorem outstanding_send_perm (h : j ∈ o.waiting) :
    (o.send j).outstanding.Perm o.outstanding := by
  have herase : (j :: o.waiting.erase j).Perm o.waiting := (List.perm_cons_erase h).symm
  calc (o.waiting.erase j ++ (o.inFlight ++ [j]))
      = (o.waiting.erase j ++ o.inFlight) ++ [j] := (List.append_assoc ..).symm
    _ |>.Perm (j :: (o.waiting.erase j ++ o.inFlight)) := List.perm_append_singleton _ _
    _ |>.Perm (o.waiting ++ o.inFlight) := herase.append_right o.inFlight

theorem jobs_lose_sublist : (o.lose j).jobs.Sublist o.jobs :=
  List.erase_sublist.append (List.Sublist.refl _)

theorem outstanding_lose_sublist : (o.lose j).outstanding.Sublist o.outstanding :=
  List.erase_sublist.append List.erase_sublist

theorem outstanding_answer_sublist : (o.answer j).outstanding.Sublist o.outstanding :=
  (List.Sublist.refl _).append List.erase_sublist

theorem Once.send (h : Once key o) (hj : j ∈ o.waiting) : Once key (o.send j) := by
  refine ⟨?_, h.sent.append (List.Sublist.refl _)⟩
  rw [KeyUnique, ((jobs_send_perm hj).map key).nodup_iff]
  exact h.unique

theorem Once.answer (h : Once key o) : Once key (o.answer j) :=
  ⟨h.unique, List.erase_sublist.trans h.sent⟩

theorem Once.lose (h : Once key o) : Once key (o.lose j) :=
  ⟨h.unique.sublist (jobs_lose_sublist.map key), List.erase_sublist.trans h.sent⟩

/-- An answered job is no longer outstanding, and no other outstanding job has its key. -/
theorem Once.answered (h : Once key o) (hj : j ∈ o.inFlight) {j' : ι}
    (hj' : j' ∈ (o.answer j).outstanding) : key j' ≠ key j := by
  have hperm : (j :: (o.answer j).outstanding).Perm o.outstanding := by
    show (j :: (o.waiting ++ o.inFlight.erase j)).Perm (o.waiting ++ o.inFlight)
    have herase : (j :: o.inFlight.erase j).Perm o.inFlight := (List.perm_cons_erase hj).symm
    exact List.perm_middle.symm.trans ((List.Perm.refl _).append herase)
  have hunique : KeyUnique key (j :: (o.answer j).outstanding) := by
    rw [KeyUnique, (hperm.map key).nodup_iff]
    exact h.outstanding_unique
  exact (keyUnique_cons.mp hunique).1 j' hj'

end Sending

/-- At most once: of the jobs that share a property only one key can have, at most one was ever
sent. -/
theorem Once.sent_le_one (h : Once key o) {p : ι → Prop} [DecidablePred p]
    (hp : ∀ j ∈ o.sent, ∀ j' ∈ o.sent, p j → p j' → key j = key j') :
    (o.sent.filter (fun j => p j)).length ≤ 1 := by
  have hunique : KeyUnique key (o.sent.filter (fun j => p j)) :=
    h.sent_unique.sublist (List.filter_sublist.map key)
  match hfilter : o.sent.filter (fun j => p j) with
  | [] => exact Nat.zero_le 1
  | [_] => exact Nat.le_refl 1
  | a :: b :: rest =>
    exfalso
    rw [hfilter] at hunique
    have ha : a ∈ o.sent.filter (fun j => p j) := by rw [hfilter]; simp
    have hb : b ∈ o.sent.filter (fun j => p j) := by rw [hfilter]; simp
    simp only [List.mem_filter, decide_eq_true_eq] at ha hb
    exact (keyUnique_cons.mp hunique).1 b (by simp) (hp b hb.1 a ha.1 hb.2 ha.2)

end Outbox

end Library
