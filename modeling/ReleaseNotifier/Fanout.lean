/-
Whom a release is announced to: `Repo.GetEmailsByRepo` and
`repository.Store.GetAll` over the tables the requests leave behind.

The poller walks over the tracked repositories and mails the listed subscribers
of each. A subscriber is mailed once if the list repeats no address and the walk
meets the repository once; a subscriber is missed if the row is active and its
repository is not walked over. Neither can happen: the partial index keeps two
active rows of one subscriber apart, the foreign key ties every row to a tracked
repository, and that one is unique.
-/
import ReleaseNotifier.Service

set_option autoImplicit false

namespace ReleaseNotifier

open Conc

namespace Tables

variable {t : Tables} {owner name email : String}

/-- `getEmailsByRepoQuery`, whose `$3` is `'active'`. -/
def getEmailsByRepoQuery (t : Tables) (owner name : String) : List String :=
  (t.subscriptions.filter (fun r => decide (r.repoOwner = owner) && decide (r.repoName = name) &&
    decide (r.status = .active))).map Subscription.email

/-- `getAllQuery`, with its `ORDER BY id`. -/
def getAllQuery (t : Tables) : List TrackedRepository :=
  t.trackedRepositories.mergeSort (fun a b => decide (a.id ≤ b.id))

theorem mem_getEmailsByRepoQuery : email ∈ t.getEmailsByRepoQuery owner name ↔
    ∃ r ∈ t.subscriptions, r.repoOwner = owner ∧ r.repoName = name ∧ r.status = .active ∧
      r.email = email := by
  simp only [getEmailsByRepoQuery, List.mem_map, List.mem_filter, Bool.and_eq_true,
    decide_eq_true_eq]
  constructor
  · rintro ⟨r, ⟨hr, ⟨ho, hn⟩, hs⟩, he⟩
    exact ⟨r, hr, ho, hn, hs, he⟩
  · rintro ⟨r, hr, ho, hn, hs, he⟩
    exact ⟨r, ⟨hr, ⟨ho, hn⟩, hs⟩, he⟩

/-- An active row is in the index, so two of them with one address and one
repository are the same row. -/
theorem getEmailsByRepoQuery_nodup (t : Tables) (owner name : String) :
    (t.getEmailsByRepoQuery owner name).Nodup := by
  refine List.Nodup.map_on ?_ (t.idsUnique.of_map.filter _)
  intro a ha b hb he
  simp only [List.mem_filter, Bool.and_eq_true, decide_eq_true_eq] at ha hb
  obtain ⟨ha, ⟨hao, han⟩, has⟩ := ha
  obtain ⟨hb, ⟨hbo, hbn⟩, hbs⟩ := hb
  refine t.liveUnique a ha b hb (by simp [has]) (by simp [hbs]) ?_
  rw [Subscription.key, Subscription.key, he, hao, hbo, han, hbn]

/-- The foreign key's target is listed, and only once. -/
theorem getAllQuery_count (h : repoTracked t.trackedRepositories owner name = true) :
    t.getAllQuery.countP (fun r => decide (r.owner = owner) && decide (r.name = name)) = 1 := by
  rw [getAllQuery, (List.mergeSort_perm _ _).countP_eq]
  refine Nat.le_antisymm ?_ ?_
  · refine Table.countP_le_one t.reposUnique (k := (owner, name)) ?_
    intro r _ hr
    simp only [Bool.and_eq_true, decide_eq_true_eq] at hr
    rw [hr.1, hr.2]
  · exact List.countP_pos_iff.mpr (List.any_eq_true.mp h)

end Tables

/-- In every state, and so in every one the requests can lead to, whatever failed on
the way: the list of a repository has the addresses of its active rows and no other,
each once, and a repository with a non-empty list is walked over exactly once. -/
theorem fanout_exact (s : State) (owner name : String) :
    (s.tables.getEmailsByRepoQuery owner name).Nodup ∧
      (∀ email, email ∈ s.tables.getEmailsByRepoQuery owner name ↔
        ∃ r ∈ s.tables.subscriptions, r.repoOwner = owner ∧ r.repoName = name ∧
          r.status = .active ∧ r.email = email) ∧
      (s.tables.getEmailsByRepoQuery owner name ≠ [] →
        s.tables.getAllQuery.countP
          (fun r => decide (r.owner = owner) && decide (r.name = name)) = 1) := by
  -- no induction on a run is left to do: what a statement leaves behind is a
  -- `Tables` again, and the declared constraints are its fields
  refine ⟨Tables.getEmailsByRepoQuery_nodup _ owner name,
    fun _ => Tables.mem_getEmailsByRepoQuery, ?_⟩
  intro hne
  obtain ⟨email, hemail⟩ := List.exists_mem_of_ne_nil _ hne
  obtain ⟨r, hr, ho, hn, _, _⟩ := Tables.mem_getEmailsByRepoQuery.mp hemail
  have htracked := s.tables.references r hr
  rw [ho, hn] at htracked
  exact Tables.getAllQuery_count htracked

/-- The first request is mailed and confirmed. -/
def confirmedRequest : List (Event Choice Call WorldEvent) :=
  sampleMailed ++ [.call (.confirm "t1"), .run 1 .ok, .run 1 .ok]

/-- After it, the fan-out has one address, of one repository. -/
theorem fanout_exact_confirmed :
    ∃ p, (monolith sample).Run (fun _ _ => True) monolithInit confirmedRequest p ∧
      p.state.tables.getEmailsByRepoQuery "o" "n" = ["a@b.c"] ∧
      p.state.tables.getAllQuery.countP
        (fun r => decide (r.owner = "o") && decide (r.name = "n")) = 1 := by
  have hrun : ((monolith sample).stepsWhere (fun _ _ => true) monolithInit confirmedRequest).any
      (fun p => decide (p.state.tables.getEmailsByRepoQuery "o" "n" = ["a@b.c"])) = true := by
    decide
  obtain ⟨p, hp, hlist⟩ := (Option.any_eq_true _ _).mp hrun
  have h := Machine.Run.of_stepsWhere (fun _ _ _ => trivial) hp
  have hemails := of_decide_eq_true hlist
  obtain ⟨_, _, honce⟩ := fanout_exact p.state "o" "n"
  exact ⟨p, h, hemails, honce (by rw [hemails]; exact List.cons_ne_nil _ _)⟩

end ReleaseNotifier
