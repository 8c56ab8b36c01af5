/-
At most one mail for a release: persist before notify.

The last tag written is the only thing the poller remembers. A tag that is on
offer and is not the one in the row is newer than all that were written, so it
has never been mailed; and it is written before the first mail goes out. A write
that takes effect and is reported as an error only makes the poller miss the
release. The lock lets one scan at a time do any of this, and what a stage of
the scan means (`Known`) is kept by its own steps and left alone by everything
else.

The invariant is proved for both clients. With the cache it needs that Redis
serves nothing older than what was written; what that takes is the subject of
the next file.
-/
import ReleaseNotifier.Scan
import ReleaseNotifier.Chronicle

set_option autoImplicit false

namespace ReleaseNotifier.Poller

open Conc Succession

variable {D : Config} {s s' : State}

/-! ## What a stage means -/

/-- The row of `repo` has the tag, and it was written. -/
def Seen (s : State) (repo : TrackedRepository) (tag : String) : Prop :=
  Current s { repo with lastSeenTag := some tag } ∧ tag ∈ s.tagsWritten repo.id

/-- What is known while a scan is at a repository. -/
def Doing.Holds (D : Config) (s : State) : Doing → Prop
  | .nothing => True
  | .asking repo => Current s repo
  | .fetched repo rel => D.cached = true ∧ Current s repo ∧
    (s.tagsAnswered repo.owner repo.name).getLast? = some rel.tagName
  | .offered repo tag => Current s repo ∧ Offers s repo tag ∧
    ∀ val rel, s.lookup (releaseKey repo.owner repo.name) = some val →
      D.json.unmarshal val = .ok rel → rel.tagName = tag
  | .persisted repo tag => Seen s repo tag ∧
    ∀ m ∈ s.sent, m.repo = fullName repo → m.release.tagName ≠ tag
  | .notifying repo tag emails => Seen s repo tag ∧ emails.Nodup ∧
    ∀ m ∈ s.sent, m.repo = fullName repo → m.release.tagName = tag → m.email ∉ emails

/-- The repository a scan is at. -/
def Doing.ids : Doing → List Nat
  | .nothing => []
  | .asking repo => [repo.id]
  | .fetched repo _ => [repo.id]
  | .offered repo _ => [repo.id]
  | .persisted repo _ => [repo.id]
  | .notifying repo _ _ => [repo.id]

/-- The rows a scan has still to go over are as it has read them. -/
structure Walk (D : Config) (rest : List TrackedRepository) (doing : Doing) (s : State) :
    Prop where
  left : ∀ r ∈ rest, Current s r
  ids : (doing.ids ++ rest.map TrackedRepository.id).Nodup
  holds : doing.Holds D s

/-- What is known in a stage. -/
def Known (D : Config) (c : Call) : Stage → State → Prop
  | .outside, _ => True
  | .locked, s => s.scanLock = some c.number
  | .walking rest doing, s => s.scanLock = some c.number ∧ Walk D rest doing s

variable {c : Call} {rest : List TrackedRepository} {doing : Doing}

variable {repo : TrackedRepository}

theorem Keeps.current (h : Keeps s s') (hc : Current s repo) : Current s' repo := by
  obtain ⟨x, hx, hsame⟩ := hc
  obtain ⟨x', hx', hsame'⟩ := h.rows x hx
  exact ⟨x', hx', hsame'.trans hsame⟩

theorem Keeps.holds (h : Keeps s s') (hd : doing.Holds D s) : doing.Holds D s' := by
  cases doing with
  | nothing => exact trivial
  | asking repo => exact h.current hd
  | fetched repo rel =>
    refine ⟨hd.1, h.current hd.2.1, ?_⟩
    rw [h.tagsAnswered]
    exact hd.2.2
  | offered repo tag =>
    refine ⟨h.current hd.1, ?_, fun val rel hval => hd.2.2 val rel (h.lookup _ val hval)⟩
    unfold Offers
    rw [h.tagsAnswered, h.tagsWritten]
    exact hd.2.1
  | persisted repo tag =>
    refine ⟨⟨h.current hd.1.1, ?_⟩, ?_⟩
    · rw [h.tagsWritten]
      exact hd.1.2
    · rw [h.sent]
      exact hd.2
  | notifying repo tag emails =>
    refine ⟨⟨h.current hd.1.1, ?_⟩, hd.2.1, ?_⟩
    · rw [h.tagsWritten]
      exact hd.1.2
    · rw [h.sent]
      exact hd.2.2

/-- What a scan knows survives what others do. -/
theorem Keeps.known (h : Keeps s s') (hlock : s'.scanLock = s.scanLock) {q : Stage}
    (hk : Known D c q s) : Known D c q s' := by
  cases q with
  | outside => exact trivial
  | locked => exact hlock.trans hk
  | walking rest doing =>
    obtain ⟨hl, hw⟩ := hk
    exact ⟨hlock.trans hl, fun r hr => h.current (hw.left r hr), hw.ids, h.holds hw.holds⟩

/-! ## The steps of a scan -/

/-- The answers a scan may get: a tag that was superseded does not come back,
and no address is listed twice. -/
def Op.admits (s : State) : Op → Decision → Bool
  | .githubGetLatestRelease owner name, .release (some rel) =>
    !decide (Superseded (s.tagsAnswered owner name) rel.tagName)
  | .stmtGetEmailsByRepo _ _, .emails emails => decide emails.Nodup
  | _, _ => true

/-- Redis serves a release under the key, and its tag is another one than that
of the release in `value`. -/
def servesOther (D : Config) (s : State) (key : String) (value : Bytes) : Bool :=
  match s.lookup key with
  | some val =>
    match D.json.unmarshal val, D.json.unmarshal value with
    | .ok rel, .ok rel' => decide (rel.tagName ≠ rel'.tagName)
    | _, _ => false
  | none => false

/-- The cache keeps up: every release marshals, and a `SET` fails without effect
only if Redis does not serve another tag under the key. -/
def Op.keepsUp (D : Config) (s : State) : Op → Decision → Bool
  | .githubGetLatestRelease _ _, .release (some rel) => (D.json.marshal rel).isOk
  | .redisSet key value _, .ends (.fail _) => !servesOther D s key value
  | _, _ => true

/-- What the cache serves has the tag that is about to be stored. -/
theorem servesOther_false {key : String} {value val : Bytes} {rel rel' : Release}
    (h : servesOther D s key value = false) (hval : s.lookup key = some val)
    (hrel : D.json.unmarshal val = .ok rel) (hrel' : D.json.unmarshal value = .ok rel') :
    rel.tagName = rel'.tagName := by
  simp only [servesOther, hval, hrel, hrel', decide_eq_false_iff_not, not_not] at h
  exact h

variable {d : Decision}

/-- What may happen to an `UPDATE`. -/
theorem execUpdate_cases {n : Nat} {t : State} {r : Except Err (Except Err Nat)}
    (h : s.execUpdate n t d = some (r, s')) :
    (s' = s ∧ ∃ err, r = .error err) ∨
      (s' = t ∧ (r = .ok (.ok n) ∨ ∀ m, r ≠ .ok (.ok m))) := by
  cases d with
  | ends ch =>
    by_cases hno : ∃ f, ch = .noCount f
    · obtain ⟨f, rfl⟩ := hno
      simp only [State.execUpdate, Option.some.injEq, Prod.mk.injEq] at h
      obtain ⟨rfl, rfl⟩ := h
      exact .inr ⟨rfl, .inr (fun m hm => by cases hm)⟩
    · have hatt : attempt s (.ok (.ok n, t)) ch = some (r, s') := by
        cases ch with
        | noCount f => exact absurd ⟨f, rfl⟩ hno
        | _ => exact h
      rcases attempt_cases hatt with ⟨e, rfl, rfl, _⟩ | ⟨a, ha, hr⟩
      · exact .inl ⟨rfl, e, rfl⟩
      · cases ha
        rcases hr with rfl | ⟨f, rfl⟩
        · exact .inr ⟨rfl, .inl rfl⟩
        · exact .inr ⟨rfl, .inr (fun m hm => by cases hm)⟩
  | _ => cases h

/-- Nothing is left to be known once the repository is done with. -/
theorem Walk.done (h : Walk D rest doing s) (hrest : ∀ r ∈ rest, Current s' r) :
    Walk D rest .nothing s' :=
  ⟨hrest, (List.nodup_append.mp h.ids).2.1, trivial⟩

/-- The cache answers. -/
theorem Walk.get {r : Except Err (Option Bytes)} (hs : Chronicle D s)
    (h : Walk D rest (.asking repo) s)
    (hx : exec s (.redisGet (releaseKey repo.owner repo.name)) d = some (r, s')) :
    s' = s ∧ Walk D rest
      (Doing.next D (.asking repo) (.redisGet (releaseKey repo.owner repo.name)) r) s := by
  have hanswer : s' = s ∧ ∀ val, r = .ok (some val) →
      s.lookup (releaseKey repo.owner repo.name) = some val := by
    simp only [exec] at hx
    split at hx
    · cases hx
      exact ⟨rfl, fun val hval => Except.ok.inj hval⟩
    · cases hx
      exact ⟨rfl, fun val hval => by cases hval⟩
    · cases hx
  obtain ⟨rfl, hval⟩ := hanswer
  refine ⟨rfl, ?_⟩
  rcases r with err | _ | val
  · exact h
  · exact h
  · have hlookup := hval val rfl
    simp only [Doing.next]
    split
    · next rel hrel =>
      obtain ⟨x, hx, hsame⟩ := h.holds
      refine ⟨h.left, h.ids, ⟨x, hx, hsame⟩, ?_, fun val' rel' hval' hrel' => ?_⟩
      · have hoff := hs.offers hx (by rw [hsame.owner, hsame.name]; exact hlookup) hrel
        unfold Offers at hoff ⊢
        rw [← hsame.owner, ← hsame.name, ← hsame.id]
        exact hoff
      · rw [hlookup, Option.some.injEq] at hval'
        subst hval'
        rw [hrel, Except.ok.injEq] at hrel'
        rw [hrel']
    · exact h

/-- GitHub answers. -/
theorem Walk.fetch {r : Except Err (Option Release)}
    (hs : Chronicle D s) (h : Walk D rest (.asking repo) s)
    (hx : exec s (.githubGetLatestRelease repo.owner repo.name) d = some (r, s'))
    (hadmits : Op.admits s (.githubGetLatestRelease repo.owner repo.name) d = true)
    (hkeeps : D.cached = true →
      Op.keepsUp D s (.githubGetLatestRelease repo.owner repo.name) d = true) :
    s'.scanLock = s.scanLock ∧ Chronicle D s' ∧ Walk D rest
      (Doing.next D (.asking repo) (.githubGetLatestRelease repo.owner repo.name) r) s' := by
  simp only [exec] at hx
  split at hx
  · cases hx
    exact ⟨rfl, hs, h⟩
  · next rel =>
    cases hx
    -- the answers of GitHub do not go back
    have hnew : ¬ Superseded (s.tagsAnswered repo.owner repo.name) rel.tagName := by
      simpa [Op.admits] using hadmits
    have hs' : Chronicle D (s.answer repo.owner repo.name rel.tagName) := hs.answer hnew
    have hlast : ((s.answer repo.owner repo.name rel.tagName).tagsAnswered repo.owner
        repo.name).getLast? = some rel.tagName := by
      rw [tagsAnswered_answer, if_pos ⟨rfl, rfl⟩, List.getLast?_concat]
    refine ⟨rfl, hs', ?_⟩
    -- with the cache the release is written first; without, it is on offer at once
    cases hcached : D.cached with
    | true =>
      have hok := hkeeps hcached
      simp only [Op.keepsUp] at hok
      cases hdata : D.json.marshal rel with
      | error err =>
        rw [hdata] at hok
        cases hok
      | ok data =>
        simp only [Doing.next, hcached, hdata]
        exact ⟨h.left, h.ids, hcached, h.holds, hlast⟩
    | false =>
      simp only [Doing.next, hcached]
      refine ⟨h.left, h.ids, h.holds, ?_, fun val rel' hval => ?_⟩
      · obtain ⟨x, hx, hsame⟩ := h.holds
        refine upToDate_of_getLast hlast (fun w hw => ?_)
        have := hs'.answered x hx w (by rw [hsame.id]; exact hw)
        rwa [hsame.owner, hsame.name] at this
      · -- without the cache Redis is not used
        have hnone : s.redis (releaseKey repo.owner repo.name) = none := hs.uncached hcached _
        have : s.lookup (releaseKey repo.owner repo.name) = some val := hval
        simp only [State.lookup, hnone] at this
        cases this
  · cases hx
    exact ⟨rfl, hs, h⟩
  · cases hx

/-- The release is put into the cache. -/
theorem Walk.set {rel : Release} {value : Bytes} {ttl : Nat}
    {r : Except Err Unit} (hj : D.cached = true → D.json.RoundTrips)
    (hs : Chronicle D s) (h : Walk D rest (.fetched repo rel) s)
    (hvalue : D.json.marshal rel = .ok value)
    (hx : exec s (.redisSet (releaseKey repo.owner repo.name) value ttl) d = some (r, s'))
    (hkeeps : D.cached = true →
      Op.keepsUp D s (.redisSet (releaseKey repo.owner repo.name) value ttl) d = true) :
    s'.scanLock = s.scanLock ∧ Chronicle D s' ∧ Walk D rest (.offered repo rel.tagName) s' := by
  obtain ⟨hcached, hcurrent, hlast⟩ := h.holds
  have hread : D.json.unmarshal value = .ok rel := hj hcached rel value hvalue
  obtain ⟨x, hxr, hsame⟩ := hcurrent
  have hoffers : Offers s repo rel.tagName := by
    refine upToDate_of_getLast hlast (fun w hw => ?_)
    have := hs.answered x hxr w (by rw [hsame.id]; exact hw)
    rwa [hsame.owner, hsame.name] at this
  have hset : s' = s.cache (releaseKey repo.owner repo.name) value ttl →
      s'.scanLock = s.scanLock ∧ Chronicle D s' ∧ Walk D rest (.offered repo rel.tagName) s' := by
    rintro rfl
    refine ⟨rfl, ?_, h.left, h.ids, ⟨x, hxr, hsame⟩, hoffers, fun val rel' hval hrel' => ?_⟩
    · rw [← hsame.owner, ← hsame.name]
      refine hs.cache hxr hcached (fun rel' hrel' => ?_)
      rw [hread, Except.ok.injEq] at hrel'
      subst hrel'
      unfold Offers at hoffers ⊢
      rw [hsame.owner, hsame.name, hsame.id]
      exact hoffers
    · rw [lookup_cache, if_pos rfl, Option.some.injEq] at hval
      rw [← hval, hread, Except.ok.injEq] at hrel'
      rw [hrel']
  simp only [exec] at hx
  split at hx
  · next ch =>
    cases ch with
    | ok => exact hset (Prod.mk.inj (Option.some.inj hx)).2.symm
    | failApplied f => exact hset (Prod.mk.inj (Option.some.inj hx)).2.symm
    | fail f =>
      -- nothing was set, so Redis must not serve anything else
      cases hx
      exact ⟨rfl, hs, h.left, h.ids, ⟨x, hxr, hsame⟩, hoffers,
        fun val rel' hval hrel' => servesOther_false (by simpa [Op.keepsUp] using hkeeps hcached)
          hval hrel' hread⟩
    | _ => cases hx
  · cases hx

/-- The tag is written. -/
theorem Walk.see {tag : String} {r : Except Err (Except Err Nat)} (hs : Chronicle D s)
    (h : Walk D rest (.offered repo tag) s) (hnew : repo.lastSeenTag ≠ some tag)
    (hx : exec s (.stmtUpdateLastSeen tag repo.id) d = some (r, s')) :
    s'.scanLock = s.scanLock ∧ Chronicle D s' ∧ Walk D rest
      (Doing.next D (.offered repo tag) (.stmtUpdateLastSeen tag repo.id) r) s' := by
  obtain ⟨⟨x, hxr, hsame⟩, hoffers, hcache⟩ := h.holds
  have hids := h.ids
  -- the other rows to go over are not this one
  have hother : ∀ r ∈ rest, r.id ≠ repo.id := by
    intro r hr heq
    refine (List.nodup_cons.mp hids).1 ?_
    rw [← heq]
    exact List.mem_map_of_mem hr
  have hoffers' : Offers s x tag := by
    unfold Offers at hoffers ⊢
    rw [hsame.owner, hsame.name, hsame.id]
    exact hoffers
  have hnew' : x.lastSeenTag ≠ some tag := by
    rw [hsame.tag]
    exact hnew
  rcases execUpdate_cases hx with ⟨rfl, err, rfl⟩ | ⟨rfl, hanswer⟩
  · exact ⟨rfl, hs, h.done h.left⟩
  · have hleft : ∀ r ∈ rest, Current (s.see tag repo.id) r :=
      fun r hr => (h.left r hr).see (hother r hr)
    have hs' : Chronicle D (s.see tag repo.id) := by
      rw [← hsame.id]
      refine hs.see hxr hoffers' hnew' (fun val rel hval hrel => ?_)
      rw [hsame.owner, hsame.name] at hval
      exact hcache val rel hval hrel
    refine ⟨rfl, hs', ?_⟩
    rcases hanswer with rfl | herror
    · -- the row is there, so the count is not zero
      have hseen : Seen (s.see tag repo.id) repo tag := by
        refine ⟨⟨_, mem_see.mpr ⟨x, hxr, rfl⟩, ?_⟩, ?_⟩
        · rw [if_pos hsame.id]
          exact ⟨hsame.id, hsame.owner, hsame.name, rfl⟩
        · rw [← hsame.id, tagsWritten_see hxr, if_pos rfl]
          simp
      have hunsent : ∀ m ∈ s.sent, m.repo = fullName repo → m.release.tagName ≠ tag := by
        intro m hm hrepo
        refine hs.unsent hxr hoffers' hnew' m hm ?_
        rw [hrepo, fullName, fullName, hsame.owner, hsame.name]
      cases hn : (s.tracked.updateLastSeenQuery s.now tag repo.id).2 with
      | zero => exact h.done hleft
      | succ n => exact ⟨hleft, hids, hseen, hunsent⟩
    · rcases r with err | err | n
      · exact h.done hleft
      · exact h.done hleft
      · exact absurd rfl (herror n)

/-- The subscribers are listed. -/
theorem Walk.list {tag owner name : String} {r : Except QueryErr (List String)}
    (h : Walk D rest (.persisted repo tag) s)
    (hx : exec s (.stmtGetEmailsByRepo owner name) d = some (r, s'))
    (hadmits : Op.admits s (.stmtGetEmailsByRepo owner name) d = true) :
    s' = s ∧ Walk D rest
      (Doing.next D (.persisted repo tag) (.stmtGetEmailsByRepo owner name) r) s := by
  obtain ⟨hseen, hunsent⟩ := h.holds
  simp only [exec] at hx
  split at hx
  · cases hx
    refine ⟨rfl, h.left, h.ids, hseen, of_decide_eq_true hadmits, fun m hm hrepo htag => ?_⟩
    exact absurd htag (hunsent m hm hrepo)
  · cases hx
    exact ⟨rfl, h.done h.left⟩
  · cases hx

/-- A mail is sent. -/
theorem Walk.send {tag : String} {emails : List String} {mail : Mail} {r : Except Err Unit}
    (hs : Chronicle D s) (h : Walk D rest (.notifying repo tag emails) s)
    (hmem : mail.email ∈ emails) (hrepo : mail.repo = fullName repo)
    (htag : mail.release.tagName = tag)
    (hx : exec s (.sendReleaseNotification mail) d = some (r, s')) :
    s'.scanLock = s.scanLock ∧ Chronicle D s' ∧
      Walk D rest (.notifying repo tag (emails.erase mail.email)) s' := by
  obtain ⟨hseen, hnodup, hunsent⟩ := h.holds
  have hs'eq : s' = { s with sent := s.sent ++ [mail] } := by
    simp only [exec] at hx
    split at hx
    · cases hx
      rfl
    · cases hx
      rfl
    · cases hx
  subst hs'eq
  obtain ⟨⟨x, hxr, hsame⟩, hwritten⟩ := hseen
  refine ⟨rfl, hs.send hxr ?_ ?_ (fun m hm hkey => ?_), h.left, h.ids, ⟨⟨x, hxr, hsame⟩, hwritten⟩,
    hnodup.erase _, fun m hm hmrepo hmtag => ?_⟩
  · rw [hrepo, fullName, fullName, hsame.owner, hsame.name]
  · rw [htag, hsame.id]
    exact hwritten
  · simp only [Mail.key, Prod.mk.injEq] at hkey
    refine hunsent m hm (hkey.1.trans hrepo) (hkey.2.1.trans htag) ?_
    rw [hkey.2.2]
    exact hmem
  · rcases List.mem_append.mp hm with hm | hm
    · exact fun hin => hunsent m hm hmrepo hmtag (List.mem_of_mem_erase hin)
    · rw [List.mem_singleton.mp hm]
      exact hnodup.not_mem_erase

/-- Operations that change no record and not the lock. -/
theorem exec_quiet {o : Op} {r : o.Res} (hx : exec s o d = some (r, s'))
    (ho : o = .ctxErr ∨ (∃ fan, o = .schedule fan) ∨ ∃ id, o = .stmtUpdateLastChecked id) :
    Quiet s s' ∧ s'.scanLock = s.scanLock := by
  rcases ho with rfl | ⟨fan, rfl⟩ | ⟨id, rfl⟩
  · simp only [exec] at hx
    split at hx
    · cases hx
      exact ⟨.refl s, rfl⟩
    · cases hx
  · simp only [exec] at hx
    split at hx
    · split at hx
      · cases hx
        exact ⟨.refl s, rfl⟩
      · cases hx
    · cases hx
  · rcases execUpdate_cases hx with ⟨rfl, _⟩ | ⟨rfl, _⟩
    · exact ⟨.refl s', rfl⟩
    · -- only `last_checked_at` is set
      have hsame : ∀ r : TrackedRepository,
          Same r (if r.id = id then Tracked.touched s.now none r else r) := by
        intro r
        split <;> exact ⟨rfl, rfl, rfl, rfl⟩
      refine ⟨⟨⟨fun r hr => ?_, rfl, rfl, rfl, fun _ _ h => h⟩, fun r' hr' => ?_, Nat.le_refl _,
        fun _ h => h⟩, rfl⟩
      · refine ⟨_, Tracked.mem_touch.mpr ⟨r, hr, rfl⟩, ?_⟩
        exact ⟨(hsame r).id.symm, (hsame r).owner.symm, (hsame r).name.symm, (hsame r).tag.symm⟩
      · obtain ⟨r, hr, rfl⟩ := Tracked.mem_touch.mp hr'
        exact ⟨r, hr, hsame r⟩

/-- An operation with the repository at hand keeps the records in order and
leads to what is known next. -/
theorem Walk.own {o : Op} {r : o.Res} (hj : D.cached = true → D.json.RoundTrips)
    (hs : Chronicle D s) (h : Walk D rest doing s) (hallow : doing.allows D o)
    (hx : exec s o d = some (r, s')) (hadmits : o.admits s d = true)
    (hkeeps : D.cached = true → o.keepsUp D s d = true) :
    s'.scanLock = s.scanLock ∧ Chronicle D s' ∧ Walk D rest (doing.next D o r) s' := by
  -- what is being done leaves one or two operations; each has its lemma
  cases doing with
  | nothing => cases o <;> exact hallow.elim
  | asking repo =>
    cases o with
    | redisGet key =>
      obtain ⟨_, rfl⟩ := hallow
      obtain ⟨rfl, hw⟩ := h.get hs hx
      exact ⟨rfl, hs, hw⟩
    | githubGetLatestRelease owner name =>
      obtain ⟨rfl, rfl⟩ := hallow
      exact h.fetch hs hx hadmits hkeeps
    | _ => exact hallow.elim
  | fetched repo rel =>
    cases o with
    | redisSet key value ttl =>
      obtain ⟨rfl, hvalue⟩ := hallow
      exact h.set hj hs hvalue hx hkeeps
    | _ => exact hallow.elim
  | offered repo tag =>
    cases o with
    | stmtUpdateLastSeen tag' id =>
      obtain ⟨rfl, rfl, hnew⟩ := hallow
      exact h.see hs hnew hx
    | _ => exact hallow.elim
  | persisted repo tag =>
    cases o with
    | stmtGetEmailsByRepo owner name =>
      obtain ⟨rfl, hw⟩ := h.list hx hadmits
      exact ⟨rfl, hs, hw⟩
    | _ => exact hallow.elim
  | notifying repo tag emails =>
    cases o with
    | sendReleaseNotification mail =>
      obtain ⟨hmem, hrepo, htag⟩ := hallow
      exact h.send hs hmem hrepo htag hx
    | _ => exact hallow.elim

theorem exec_unlock {r : Unit} (hx : exec s .unlock d = some (r, s')) :
    s' = { s with scanLock := none } := by
  simp only [exec] at hx
  split at hx
  · cases hx
    rfl
  · cases hx

/-- The lock is taken by one scan at a time. -/
theorem exec_tryLock {number : Nat} {r : Bool} (hx : exec s (.tryLock number) d = some (r, s')) :
    (r = false ∧ s' = s ∧ s.scanLock.isSome = true) ∨
      (r = true ∧ s.scanLock = none ∧ s' = { s with scanLock := some number }) := by
  simp only [exec] at hx
  split at hx
  · split at hx
    · next hheld =>
      cases hx
      exact .inl ⟨rfl, rfl, hheld⟩
    · next hfree =>
      cases hx
      refine .inr ⟨rfl, ?_, rfl⟩
      rwa [Bool.not_eq_true, Option.isSome_eq_false_iff, Option.isNone_iff_eq_none] at hfree
  · cases hx

/-- Numbers are handed out by calls only. -/
theorem exec_scans {o : Op} {r : o.Res} (hx : exec s o d = some (r, s')) : s'.scans = s.scans := by
  cases o with
  | tryLock number => rcases exec_tryLock hx with ⟨_, rfl, _⟩ | ⟨_, _, rfl⟩ <;> rfl
  | unlock => rw [exec_unlock hx]
  | stmtUpdateLastSeen tag id => rcases execUpdate_cases hx with ⟨rfl, _⟩ | ⟨rfl, _⟩ <;> rfl
  | stmtUpdateLastChecked id => rcases execUpdate_cases hx with ⟨rfl, _⟩ | ⟨rfl, _⟩ <;> rfl
  | redisSet key value ttl =>
    simp only [exec] at hx
    split at hx
    · rcases attempt_cases hx with ⟨_, _, rfl, _⟩ | ⟨_, heffect, _⟩
      · rfl
      · cases heffect
        rfl
    · cases hx
  | schedule fan =>
    simp only [exec] at hx
    split at hx
    · split at hx <;> cases hx
      rfl
    · cases hx
  | _ =>
    simp only [exec] at hx
    split at hx <;> cases hx <;> rfl

/-- Whoever holds the lock, the records do not say. -/
theorem quiet_lock (s : State) (lock : Option Nat) : Quiet s { s with scanLock := lock } :=
  .of_rows rfl rfl rfl rfl (fun _ _ h => h) (fun _ h => h)

/-- The step lemma of a scan. -/
theorem Known.own {q : Stage} {o : Op} {r : o.Res} (hj : D.cached = true → D.json.RoundTrips)
    (hs : Chronicle D s) (hk : Known D c q s) (hallow : (stages D c).allows q o)
    (hx : exec s o d = some (r, s')) (hadmits : o.admits s d = true)
    (hkeeps : D.cached = true → o.keepsUp D s d = true) :
    Chronicle D s' ∧ Known D c ((stages D c).next q o r) s' := by
  cases q with
  | outside =>
    cases o with
    | tryLock number =>
      obtain rfl : number = c.number := hallow
      rcases exec_tryLock hx with ⟨rfl, rfl, _⟩ | ⟨rfl, _, rfl⟩
      · exact ⟨hs, trivial⟩
      · exact ⟨(quiet_lock s _).chronicle hs, rfl⟩
    | _ => exact hallow.elim
  | locked =>
    cases o with
    | stmtGetAll =>
      simp only [exec] at hx
      split at hx
      · cases hx
        refine ⟨hs, hk, fun r hr => ?_, ?_, trivial⟩
        · exact ⟨r, mem_getAllQuery.mp hr, .refl r⟩
        · exact getAllQuery_ids _
      · cases hx
        exact ⟨hs, hk⟩
      · cases hx
    | unlock =>
      rw [exec_unlock hx]
      exact ⟨(quiet_lock s _).chronicle hs, trivial⟩
    | _ => exact hallow.elim
  | walking rest doing =>
    obtain ⟨hl, hw⟩ := hk
    have hquiet : Quiet s s' ∧ s'.scanLock = s.scanLock →
        Chronicle D s' ∧ Known D c (.walking rest doing) s' := fun h =>
      ⟨h.1.chronicle hs, h.1.known h.2 ⟨hl, hw⟩⟩
    have hown : doing.allows D o → Chronicle D s' ∧
        Known D c (.walking rest (doing.next D o r)) s' := fun h => by
      obtain ⟨hlock, hs', hw'⟩ := hw.own hj hs h hx hadmits hkeeps
      exact ⟨hs', hlock.trans hl, hw'⟩
    cases o with
    | unlock =>
      rw [exec_unlock hx]
      exact ⟨(quiet_lock s _).chronicle hs, trivial⟩
    | ctxErr =>
      obtain ⟨hs', hk'⟩ := hquiet (exec_quiet hx (.inl rfl))
      refine ⟨hs', ?_⟩
      have hstay : Known D c (.walking rest (doing.next D .ctxErr r)) s' := by
        cases doing <;> exact hk'
      cases rest with
      | nil => exact hstay
      | cons repo rest =>
        cases r with
        | true => exact hstay
        | false =>
          -- the next row is as it was read, and is not among the ones after it
          obtain ⟨hl', hw'⟩ := hk'
          refine ⟨hl', fun r hr => hw'.left r (List.mem_cons_of_mem _ hr), ?_,
            hw'.left repo List.mem_cons_self⟩
          exact (List.nodup_append.mp hw'.ids).2.1
    | schedule fan =>
      obtain ⟨hs', hk'⟩ := hquiet (exec_quiet hx (.inr (.inl ⟨fan, rfl⟩)))
      refine ⟨hs', ?_⟩
      cases rest <;> cases doing <;> exact hk'
    | stmtUpdateLastChecked id =>
      obtain ⟨hs', hk'⟩ := hquiet (exec_quiet hx (.inr (.inr ⟨id, rfl⟩)))
      refine ⟨hs', ?_⟩
      cases rest <;> cases doing <;> exact hk'
    | _ => cases rest <;> exact hown hallow

/-! ## The world -/

/-- An entry that has not expired had not expired before. -/
theorem quiet_pass (s : State) (time : Nat) : Quiet s { s with now := s.now + time } := by
  refine .of_rows rfl rfl rfl rfl (fun key val h => ?_) (fun _ h => h)
  simp only [State.lookup] at h ⊢
  split at h
  · next e _ =>
    split at h
    · next hlive =>
      have hearlier : e.expiresAt.all (fun t => decide (s.now < t)) = true := by
        cases hexp : e.expiresAt with
        | none => rfl
        | some t =>
          rw [hexp] at hlive
          have := of_decide_eq_true hlive
          exact decide_eq_true (Nat.lt_of_le_of_lt (Nat.le_add_right _ _) this)
      rw [← h]
      exact if_pos hearlier
    · cases h
  · cases h

theorem quiet_evict (s : State) (key' : String) :
    Quiet s { s with redis := Function.update s.redis key' none } := by
  refine .of_rows rfl rfl rfl rfl (fun key val h => ?_) (fun key h => ?_)
  · simp only [State.lookup] at h ⊢
    by_cases hkey : key = key'
    · rw [hkey, Function.update_self] at h
      cases h
    · rw [Function.update_of_ne hkey] at h
      exact h
  · show Function.update s.redis key' none key = none
    by_cases hkey : key = key'
    · rw [hkey, Function.update_self]
    · rw [Function.update_of_ne hkey]
      exact h

/-- Time and evictions keep the books. -/
theorem world_chronicle {w : WorldEvent} (hs : Chronicle D s) (hw : world w s = some s') :
    Chronicle D s' := by
  cases w with
  | pass time =>
    cases hw
    exact (quiet_pass s time).chronicle hs
  | upsert raw =>
    simp only [world] at hw
    split at hw
    · next ref href =>
      cases hw
      exact hs.upsert (parseRef_owner href)
    · cases hw
  | evict key' =>
    cases hw
    exact (quiet_evict s key').chronicle hs
  | restart =>
    cases hw
    exact (quiet_lock s _).chronicle hs

/-- Short of a restart, the world leaves a running scan alone. -/
theorem world_known {w : WorldEvent} {q : Stage} (hk : Known D c q s) (hw : world w s = some s')
    (hne : w ≠ .restart) : Known D c q s' := by
  cases w with
  | pass time =>
    cases hw
    exact (quiet_pass s time).known rfl hk
  | upsert raw =>
    simp only [world] at hw
    split at hw
    · next ref href =>
      cases hw
      have hkeeps : Keeps s
          { s with tracked := s.tracked.upsertQuery ref.owner ref.name } := by
        refine ⟨fun r hr => ⟨r, ?_, .refl r⟩, rfl, rfl, rfl, fun _ _ h => h⟩
        show r ∈ (s.tracked.upsertQuery ref.owner ref.name).rows
        unfold Tracked.upsertQuery
        split
        · exact hr
        · exact List.mem_append_left _ hr
      exact hkeeps.known rfl hk
    · cases hw
  | evict key =>
    cases hw
    exact (quiet_evict s key).known rfl hk
  | restart => exact absurd rfl hne

/-! ## Runs -/

/-- The assumptions about the environment: the answers of a scan are admitted,
and the process is only started anew when the old one is gone. -/
def Admitted (p : Scans) : Event Decision Call WorldEvent → Prop
  | .run i d => ∀ x ∈ p.due? i, x.2.admits p.state d = true
  | .env .restart => ∀ th ∈ p.threads, th.ended.isSome = true
  | _ => True

/-- What holds throughout a run. -/
structure Sound (D : Config) (p : Scans) : Prop where
  chronicle : Chronicle D p.state
  numbered : p.Numbered (fun c => some c.number) State.scans
  tracks : p.Tracks (stages D) (fun _ _ q => q = .outside) (Known D)

theorem enter_cases {c : Call} (h : enter c s = some s') :
    c.number ∉ s.scans ∧ s' = { s with scans := c.number :: s.scans } := by
  simp only [enter] at h
  split at h
  · cases h
  · next hfresh => exact ⟨hfresh, (Option.some.inj h).symm⟩

/-- A scan is made with a new number. -/
theorem enter_number {c : Call} (h : enter c s = some s') :
    ∀ n ∈ some c.number, n ∉ s.scans ∧ n ∈ s'.scans := by
  obtain ⟨hfresh, rfl⟩ := enter_cases h
  rintro n ⟨⟩
  exact ⟨hfresh, List.mem_cons_self⟩

/-- The cache keeps up in every step. -/
def KeepsUp (D : Config) (p : Scans) : Event Decision Call WorldEvent → Prop
  | .run i d => ∀ x ∈ p.due? i, x.2.keepsUp D p.state d = true
  | _ => True

/-- A scan is outside, or it holds the lock. -/
theorem Known.holder {q : Stage} (h : Known D c q s) :
    q = .outside ∨ s.scanLock = some c.number := by
  cases q with
  | outside => exact .inl rfl
  | locked => exact .inr h
  | walking rest doing => exact .inr h.1

/-- While one scan holds the lock, the operation of another changes nothing. -/
theorem Known.excludes {c' : Call} {q q' : Stage} {o : Op} {r : o.Res} (hne : c'.number ≠ c.number)
    (hk : Known D c q s) (hk' : Known D c' q' s) (hallow : (stages D c').allows q' o)
    (hx : exec s o d = some (r, s')) : q = .outside ∨ s' = s := by
  rcases hk.holder with rfl | hheld
  · exact .inl rfl
  · rcases hk'.holder with rfl | hheld'
    · cases o with
      | tryLock number =>
        rcases exec_tryLock hx with ⟨_, hsame, _⟩ | ⟨_, hfree, _⟩
        · exact .inr hsame
        · rw [hheld] at hfree
          cases hfree
      | _ => exact hallow.elim
    · rw [hheld, Option.some.injEq] at hheld'
      exact absurd hheld'.symm hne

variable {p p' : Scans}

theorem Sound.call {c : Call} (h : Sound D p) (hs : (machine D).step p (.call c) = some p') :
    Sound D p' := by
  obtain ⟨s, hent, hp'⟩ := (machine D).step_call hs
  obtain ⟨hfresh, hs'⟩ := enter_cases hent
  have hstate : p'.state = { p.state with scans := c.number :: p.state.scans } := by
    rw [hp', ← hs']
  have hquiet : Quiet p.state p'.state := by
    rw [hstate]
    exact .of_rows rfl rfl rfl rfl (fun _ _ h => h) (fun _ h => h)
  refine ⟨hquiet.chronicle h.chronicle,
    h.numbered.step hs (fun n hn => ?_) (fun _ _ => enter_number),
    h.tracks.step (fun _ => scan_obeys) hs ?_ ?_ (fun j th q _ _ _ _ hk => ?_)⟩
  · rw [hstate]
    exact List.mem_cons_of_mem _ hn
  · intro c s _ _
    exact trivial
  · intro i ch th o k r s q hrun
    cases hrun
  · exact hquiet.known (by rw [hstate]) hk

/-- **An operation of a scan keeps all of it**, where the cache keeps up. -/
theorem Sound.run {i : Nat} (hj : D.cached = true → D.json.RoundTrips) (h : Sound D p)
    (hadmits : Admitted p (.run i d)) (hkeeps : D.cached = true → KeepsUp D p (.run i d))
    (hs : (machine D).step p (.run i d) = some p') : Sound D p' := by
  obtain ⟨th, o, k, r, s, hth, hend, hp, hx, hp'⟩ := (machine D).step_run hs
  have hstate : p'.state = s := by rw [hp']
  have hdue := Pool.due?_of_op hth hend hp
  obtain ⟨q, hq, hk⟩ := h.tracks i th hth (.inl hend)
  rw [hp] at hq
  -- whatever its stage, the scan's own operation keeps the records
  have hown : ∀ q, (stages D th.call).allows q o → Known D th.call q p.state →
      Chronicle D s ∧ Known D th.call ((stages D th.call).next q o r) s := fun q hallow hk =>
    hk.own hj h.chronicle hallow hx (hadmits _ hdue) (fun hc => hkeeps hc _ hdue)
  have hscans : s.scans = p.state.scans := exec_scans hx
  refine ⟨?_, h.numbered.step hs (fun n hn => ?_) (fun _ _ => enter_number),
    h.tracks.step (fun _ => scan_obeys) hs ?_ ?_ (fun j th' q' hth' _ hne _ hk' => ?_)⟩
  · rw [hstate]
    exact (hown q hq.1 hk).1
  · rw [hstate, hscans]
    exact hn
  · intro c s hc
    cases hc
  · intro i₁ d₁ th₁ o₁ k₁ r₁ s₁ q₁ hrun hth₁ hp₁ hx₁ hallow₁ hk₁
    cases hrun
    rw [hth, Option.some.injEq] at hth₁
    subst hth₁
    rw [hp] at hp₁
    cases hp₁
    rw [hx] at hx₁
    cases hx₁
    exact (hown q₁ hallow₁ hk₁).2
  · -- the lock keeps the other scans apart
    have hdiff : th.call.number ≠ th'.call.number := by
      intro heq
      have hij := h.numbered.distinct i j th.call th'.call th.call.number
        (Pool.calls_of_thread hth) (Pool.calls_of_thread hth') rfl (by rw [heq])
      exact hne d (by rw [hij])
    rw [hstate]
    rcases hk'.excludes hdiff hk hq.1 hx with rfl | rfl
    · exact trivial
    · exact hk'

/-- So does the world. -/
theorem Sound.env {w : WorldEvent} (h : Sound D p) (hadmits : Admitted p (.env w))
    (hs : (machine D).step p (.env w) = some p') : Sound D p' := by
  obtain ⟨s, hw, rfl⟩ := (machine D).step_env hs
  have hscans : s.scans = p.state.scans := by
    cases w with
    | upsert raw =>
      simp only [machine, world] at hw
      split at hw <;> cases hw
      rfl
    | _ => cases hw; rfl
  refine ⟨world_chronicle h.chronicle hw,
    h.numbered.step hs (fun n hn => ?_) (fun _ _ => enter_number),
    h.tracks.step (fun _ => scan_obeys) hs ?_ ?_ (fun j th q hth hun _ hq hk => ?_)⟩
  · show n ∈ s.scans
    rw [hscans]
    exact hn
  · intro c s hc
    cases hc
  · intro i d th o k r s q hrun
    cases hrun
  · by_cases hrestart : w = .restart
    · -- nobody is running, and a scan that has returned is outside
      subst hrestart
      have hended := hadmits th (List.mem_of_getElem? hth)
      have hne : th.ended ≠ none := Option.isSome_iff_ne_none.mp hended
      obtain ⟨_, _, rfl⟩ := hun.returned hne hq
      exact trivial
    · exact world_known hk hw hrestart

/-- The step lemma of the poller. -/
theorem Sound.step {e : Event Decision Call WorldEvent} (hj : D.cached = true → D.json.RoundTrips)
    (h : Sound D p) (hadmits : Admitted p e) (hkeeps : D.cached = true → KeepsUp D p e)
    (hs : (machine D).step p e = some p') : Sound D p' := by
  cases e with
  | call c => exact h.call hs
  | run i d => exact h.run hj hadmits hkeeps hs
  | kill i =>
    have hsame : p'.state = p.state := by
      obtain ⟨th, _, _, rfl⟩ := (machine D).step_kill hs
      rfl
    refine ⟨hsame ▸ h.chronicle,
      h.numbered.step hs (fun n hn => hsame ▸ hn) (fun _ _ => enter_number),
      h.tracks.step (fun _ => scan_obeys) hs ?_ ?_ (fun j th q _ _ _ _ hk => hsame ▸ hk)⟩
    · intro c s hc
      cases hc
    · intro i d th o k r s q hrun
      cases hrun
  | env w => exact h.env hadmits hs

theorem chronicle_init (D : Config) : Chronicle D State.init := by
  refine ⟨?_, fun _ _ => noReturn_nil, ?_, ?_, ?_, ?_, ?_, .nil, ?_, fun _ _ => rfl⟩
  · intro r hr
    cases hr
  · intro r hr
    cases hr
  · intro r hr
    cases hr
  · intro r hr
    cases hr
  · intro x hx
    cases hx
  · intro m hm
    cases hm
  · intro key val hval
    cases hval

/-- The run lemma of the poller. -/
theorem sound_of_run {es : List (Event Decision Call WorldEvent)} {p : Scans}
    {Cond : Scans → Event Decision Call WorldEvent → Prop}
    (hj : D.cached = true → D.json.RoundTrips) (h : (machine D).Run Cond init es p)
    (hadmits : ∀ p e, Cond p e → Admitted p e)
    (hkeeps : ∀ p e, Cond p e → D.cached = true → KeepsUp D p e) : Sound D p := by
  refine h.invariant (J := Sound D) ?_
    (fun p e p' hp hc hs => hp.step hj (hadmits p e hc) (hkeeps p e hc) hs)
  refine ⟨chronicle_init D, ⟨?_, ?_⟩, ?_⟩
  · intro c hc
    cases hc
  · intro i j c c' n hc
    cases hc
  · intro i th hth
    cases hth

/-- When a mail is about to go out, its tag is in the row. -/
theorem Sound.seen {p : Scans} {i : Nat} {c : Call} {mail : Mail} (h : Sound D p)
    (hdue : p.due? i = some (c, .sendReleaseNotification mail)) :
    ∃ r ∈ p.state.tracked.rows, mail.repo = fullName r ∧
      r.lastSeenTag = some mail.release.tagName ∧
      mail.release.tagName ∈ p.state.tagsWritten r.id := by
  obtain ⟨th, hth, _, hpending⟩ := Pool.due?_eq_some hdue
  obtain ⟨hend, k, hp⟩ := Thread.pending?_eq_some hpending
  obtain ⟨q, hq, hk⟩ := h.tracks i th hth (.inl hend)
  rw [hp] at hq
  have hallow := hq.1
  cases q with
  | outside => exact hallow.elim
  | locked => exact hallow.elim
  | walking rest doing =>
    cases doing with
    | notifying repo tag emails =>
      obtain ⟨_, hrepo, rfl⟩ := hallow
      obtain ⟨⟨x, hx, hsame⟩, hwritten⟩ := hk.2.holds.1
      refine ⟨x, hx, ?_, hsame.tag, ?_⟩
      · rw [hrepo, fullName, fullName, hsame.owner, hsame.name]
      · rw [hsame.id]
        exact hwritten
    | _ => exact hallow.elim

/-- For every sequence of scans, with crashes and restarts between any two steps
and any failure of any operation, writes that take effect and are reported as
errors included, and answers among which no superseded tag comes back: each
subscriber is sent at most one mail for a tag of a repository, and when a mail
is about to be sent, `last_seen_tag` of the repository has been set to its tag
and still is. -/
theorem detection_at_most_once (D : Config) (hdirect : D.cached = false)
    (es : List (Event Decision Call WorldEvent)) (p : Scans)
    (h : (machine D).Run Admitted init es p) :
    (∀ repo tag email, (p.state.sent.map Mail.key).count (repo, tag, email) ≤ 1) ∧
      ∀ i c mail, p.due? i = some (c, .sendReleaseNotification mail) →
        ∃ r ∈ p.state.tracked.rows, mail.repo = fullName r ∧
          r.lastSeenTag = some mail.release.tagName ∧
          mail.release.tagName ∈ p.state.tagsWritten r.id := by
  have huncached : D.cached ≠ true := by rw [hdirect]; exact Bool.false_ne_true
  have hsound : Sound D p := sound_of_run (fun hc => absurd hc huncached) h (fun _ _ h => h)
    (fun _ _ _ hc => absurd hc huncached)
  exact ⟨fun repo tag email => List.nodup_iff_count_le_one.mp hsound.chronicle.once _,
    fun i c mail hdue => hsound.seen hdue⟩

/-- The first scan finds `v1` and crashes with one of two mails sent. The
second one finds nothing new. The third one finds `v2` but its write, which
takes effect, is reported as an error. The fourth one finds `v3`. -/
def crashes : List (Event Decision Call WorldEvent) :=
  [.env (.upsert "o/r"),
    .call ⟨1⟩, .run 0 (.ends .ok), .run 0 (.ends .ok), .run 0 (.ends (.answer false)),
    .run 0 (.release (some (sampleRelease "v1"))), .run 0 (.ends .ok),
    .run 0 (.emails ["a@x.io", "b@x.io"]), .run 0 (.moves .handOver), .run 0 (.moves (.send 0)),
    .run 0 (.ends .ok), .kill 0, .env .restart,
    .call ⟨2⟩, .run 1 (.ends .ok), .run 1 (.ends .ok), .run 1 (.ends (.answer false)),
    .run 1 (.release (some (sampleRelease "v1"))), .run 1 (.ends .ok), .run 1 (.ends .ok),
    .call ⟨3⟩, .run 2 (.ends .ok), .run 2 (.ends .ok), .run 2 (.ends (.answer false)),
    .run 2 (.release (some (sampleRelease "v2"))), .run 2 (.ends (.failApplied (.io "timeout"))),
    .run 2 (.ends .ok),
    .call ⟨4⟩, .run 3 (.ends .ok), .run 3 (.ends .ok), .run 3 (.ends (.answer false)),
    .run 3 (.release (some (sampleRelease "v3"))), .run 3 (.ends .ok),
    .run 3 (.emails ["a@x.io", "b@x.io"]), .run 3 (.moves .handOver), .run 3 (.moves .handOver),
    .run 3 (.moves (.send 1))]

instance (p : Scans) : DecidablePred (Admitted p)
  | .run i d => inferInstanceAs (Decidable (∀ x ∈ p.due? i, x.2.admits p.state d = true))
  | .env .restart => inferInstanceAs (Decidable (∀ th ∈ p.threads, th.ended.isSome = true))
  | .env (.pass _) => isTrue trivial
  | .env (.upsert _) => isTrue trivial
  | .env (.evict _) => isTrue trivial
  | .call _ => isTrue trivial
  | .kill _ => isTrue trivial

/-- Crashes and lost replies cost mails, and send none twice. -/
theorem detection_at_most_once_crashes :
    ∃ p, (machine (sample false)).Run Admitted init crashes p ∧
      p.state.sent = [⟨"a@x.io", "o/r", sampleRelease "v1"⟩] ∧
      p.state.tagsWritten 1 = ["v1", "v2", "v3"] ∧
      p.due? 3 = some (⟨4⟩, .sendReleaseNotification ⟨"b@x.io", "o/r", sampleRelease "v3"⟩) ∧
      (p.state.sent.map Mail.key).count ("o/r", "v1", "a@x.io") ≤ 1 ∧
      ∃ r ∈ p.state.tracked.rows, "o/r" = fullName r ∧ r.lastSeenTag = some "v3" ∧
        "v3" ∈ p.state.tagsWritten r.id := by
  have hrun : ((machine (sample false)).stepsWhere (fun p e => decide (Admitted p e)) init
      crashes).any (fun p => decide (p.state.sent = [⟨"a@x.io", "o/r", sampleRelease "v1"⟩]) &&
        decide (p.state.tagsWritten 1 = ["v1", "v2", "v3"]) && decide (p.due? 3
          = some (⟨4⟩, .sendReleaseNotification ⟨"b@x.io", "o/r", sampleRelease "v3"⟩))) = true := by
    decide
  obtain ⟨p, hp, hall⟩ := (Option.any_eq_true _ _).mp hrun
  simp only [Bool.and_eq_true, decide_eq_true_eq] at hall
  obtain ⟨⟨hsent, hwritten⟩, hdue⟩ := hall
  have h : (machine (sample false)).Run Admitted init crashes p :=
    .of_stepsWhere (fun _ _ h => of_decide_eq_true h) hp
  obtain ⟨honce, hseen⟩ := detection_at_most_once (sample false) rfl crashes p h
  exact ⟨p, h, hsent, hwritten, hdue, honce "o/r" "v1" "a@x.io", hseen 3 _ _ hdue⟩

end ReleaseNotifier.Poller
