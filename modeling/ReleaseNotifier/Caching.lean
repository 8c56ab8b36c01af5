/-
The poller behind the cache: can it go back in time?

The poller compares what it is offered with the last tag only, so it takes an
older release for a new one. Redis may serve one: an entry that is still live
when a newer release was fetched during an outage and could not be stored. The
older tag is then written again and its subscribers are mailed again
(`outage_goes_back`).

This is the only way. As long as no `SET` fails without effect while Redis still
serves another tag of the repository, whatever other commands fail and whenever
entries expire, the tags written are in the order of GitHub's answers.
-/
import ReleaseNotifier.Detection

set_option autoImplicit false

namespace ReleaseNotifier.Poller

open Conc Succession

instance (D : Config) (p : Scans) : DecidablePred (KeepsUp D p)
  | .run i d => inferInstanceAs (Decidable (∀ x ∈ p.due? i, x.2.keepsUp D p.state d = true))
  | .call _ => isTrue trivial
  | .kill _ => isTrue trivial
  | .env _ => isTrue trivial

/-- For every sequence of scans, with any failures of any operation and entries
expiring at any time, in which GitHub's answers do not return to a superseded
tag and the cache keeps up: no tag is written twice to a row, each one written
is newer than those before it, and no mail is repeated. -/
theorem caching_keeps_order (D : Config) (hjson : D.json.RoundTrips)
    (es : List (Event Decision Call WorldEvent)) (p : Scans)
    (h : (machine D).Run (fun p e => Admitted p e ∧ KeepsUp D p e) init es p) :
    (∀ r ∈ p.state.tracked.rows, (p.state.tagsWritten r.id).Nodup ∧
        (p.state.tagsWritten r.id).Pairwise (Older (p.state.tagsAnswered r.owner r.name))) ∧
      ∀ repo tag email, (p.state.sent.map Mail.key).count (repo, tag, email) ≤ 1 := by
  have hsound : Sound D p :=
    sound_of_run (fun _ => hjson) h (fun _ _ h => h.1) (fun _ _ h _ => h.2)
  refine ⟨fun r hr => ?_, fun repo tag email => ?_⟩
  · have hordered := hsound.chronicle.ordered r hr
    exact ⟨nodup_of_ordered hordered, hordered⟩
  · exact List.nodup_iff_count_le_one.mp hsound.chronicle.once _

/-- Scan `number`, thread `i`, up to the client's first operation. -/
def scanStarts (i number : Nat) : List (Event Decision Call WorldEvent) :=
  [.call ⟨number⟩, .run i (.ends .ok), .run i (.ends .ok), .run i (.ends (.answer false))]

/-- The cache is asked, GitHub answers, and the answer is to be stored. -/
def scanFetches (i : Nat) (get : Choice) (tag : String) (set : Choice) :
    List (Event Decision Call WorldEvent) :=
  [.run i (.ends get), .run i (.release (some (sampleRelease tag))), .run i (.ends set)]

/-- It writes the tag it was offered, sends one mail and is done. -/
def scanNotifies (i : Nat) : List (Event Decision Call WorldEvent) :=
  [.run i (.ends .ok), .run i (.emails ["a@x.io"]), .run i (.ends .ok), .run i (.ends .ok)]

/-- A `GET` fails and the `SET` after it replaces the entry; later, when the
entry has expired, both fail; the last scan finds nothing in the cache and
nothing new. -/
def flaky : List (Event Decision Call WorldEvent) := List.flatten
  [[.env (.upsert "o/r")],
    scanStarts 0 1, scanFetches 0 .ok "v1" .ok, scanNotifies 0, [.env (.pass 300)],
    scanStarts 1 2, scanFetches 1 (.fail (.io "i/o timeout")) "v2" .ok, scanNotifies 1,
    [.env (.pass 700)],
    scanStarts 2 3, scanFetches 2 (.fail (.io "i/o timeout")) "v3" (.fail (.io "i/o timeout")),
    scanNotifies 2, [.env (.pass 300)],
    scanStarts 3 4, scanFetches 3 .ok "v3" .ok, [.run 3 (.ends .ok), .run 3 (.ends .ok)]]

theorem sample_roundTrips : (sample true).json.RoundTrips :=
  Codec.ofTable_roundTrips (by decide)

/-- With a cache that fails now and then no tag is written twice. -/
theorem caching_keeps_order_flaky :
    ∃ p, (machine (sample true)).Run (fun p e => Admitted p e ∧ KeepsUp (sample true) p e) init
        flaky p ∧
      (∃ r ∈ p.state.tracked.rows, p.state.tagsWritten r.id = ["v1", "v2", "v3"] ∧
        (p.state.tagsWritten r.id).Nodup) ∧
      (p.state.sent.map Mail.key).count ("o/r", "v1", "a@x.io") ≤ 1 := by
  have hrun : ((machine (sample true)).stepsWhere
      (fun p e => decide (Admitted p e ∧ KeepsUp (sample true) p e)) init flaky).any
      (fun p => p.state.tracked.rows.any
        (fun r => decide (p.state.tagsWritten r.id = ["v1", "v2", "v3"]))) = true := by
    decide
  obtain ⟨p, hp, hall⟩ := (Option.any_eq_true _ _).mp hrun
  obtain ⟨r, hr, hwritten⟩ := List.any_eq_true.mp hall
  have h : (machine (sample true)).Run (fun p e => Admitted p e ∧ KeepsUp (sample true) p e) init
      flaky p := .of_stepsWhere (fun _ _ h => of_decide_eq_true h) hp
  obtain ⟨horder, honce⟩ := caching_keeps_order (sample true) sample_roundTrips flaky p h
  exact ⟨p, h, ⟨r, hr, of_decide_eq_true hwritten, (horder r hr).1⟩, honce _ _ _⟩

/-- The entry of `v1` is live when Redis is out: `v2` is fetched, written and
mailed, and cannot be stored. Then Redis is back. -/
def outage : List (Event Decision Call WorldEvent) := List.flatten
  [[.env (.upsert "o/r")],
    scanStarts 0 1, scanFetches 0 .ok "v1" .ok, scanNotifies 0, [.env (.pass 200)],
    scanStarts 1 2,
    scanFetches 1 (.fail (.io "connection refused")) "v2" (.fail (.io "connection refused")),
    scanNotifies 1, [.env (.pass 200)],
    scanStarts 2 3, [.run 2 (.ends .ok)], scanNotifies 2]

/-- The tag that was written first is written again, and mailed again. -/
theorem outage_goes_back :
    ∃ p, (machine (sample true)).Run Admitted init outage p ∧
      p.state.tagsAnswered "o" "r" = ["v1", "v2"] ∧
      p.state.tagsWritten 1 = ["v1", "v2", "v1"] ∧
      (p.state.sent.map Mail.key).count ("o/r", "v1", "a@x.io") = 2 := by
  have hrun : ((machine (sample true)).stepsWhere (fun p e => decide (Admitted p e)) init
      outage).any (fun p => decide (p.state.tagsAnswered "o" "r" = ["v1", "v2"]) &&
        decide (p.state.tagsWritten 1 = ["v1", "v2", "v1"]) &&
        decide ((p.state.sent.map Mail.key).count ("o/r", "v1", "a@x.io") = 2)) = true := by
    decide
  obtain ⟨p, hp, hall⟩ := (Option.any_eq_true _ _).mp hrun
  simp only [Bool.and_eq_true, decide_eq_true_eq] at hall
  exact ⟨p, .of_stepsWhere (fun _ _ h => of_decide_eq_true h) hp, hall.1.1, hall.1.2, hall.2⟩

end ReleaseNotifier.Poller
