/-
The records of the poller and the order they are in.

The tags written to a repository's row are some of those GitHub has answered,
and each is newer than the one before it: a tag that was superseded does not
come back. `Chronicle` says so, and that every mail is for a tag that was
written, that no mail is repeated, and that Redis serves nothing older than what
was written. For each step that is recorded there is a lemma with what the step
needs to keep it so: an answer must be no return, a tag that is written must be
on offer and not in the row, a mail must be new.
-/
import ReleaseNotifier.Poller
import ReleaseNotifier.Succession
import Mathlib.Data.List.TakeDrop
import Mathlib.Data.List.TakeWhile

set_option autoImplicit false

namespace ReleaseNotifier.Poller

open Conc Succession

/-! ## Names of repositories -/

/-- An owner without a slash can be read off the full name. -/
theorem fullName_inj {o n o' n' : String} (ho : '/' ∉ o.toList) (ho' : '/' ∉ o'.toList)
    (h : o ++ "/" ++ n = o' ++ "/" ++ n') : o = o' ∧ n = n' := by
  have hlist : o.toList ++ '/' :: n.toList = o'.toList ++ '/' :: n'.toList := by
    have := congrArg String.toList h
    simpa using this
  have htake : ∀ {a b : List Char}, '/' ∉ a →
      (a ++ '/' :: b).takeWhile (fun c => c != '/') = a := by
    intro a b ha
    rw [List.takeWhile_append_of_pos]
    · simp
    · intro c hc
      simp only [bne_iff_ne, ne_eq]
      rintro rfl
      exact ha hc
  have howner : o.toList = o'.toList := by
    rw [← htake ho, hlist, htake ho']
  rw [howner] at hlist
  have hname := List.append_cancel_left hlist
  rw [List.cons.injEq] at hname
  exact ⟨String.toList_inj.mp howner, String.toList_inj.mp hname.2⟩

/-- Two repositories do not share a cache key. -/
theorem releaseKey_inj {o n o' n' : String} (ho : '/' ∉ o.toList) (ho' : '/' ∉ o'.toList)
    (h : releaseKey o n = releaseKey o' n') : o = o' ∧ n = n' := by
  refine fullName_inj ho ho' ?_
  exact String.append_right_inj _ |>.mp h

/-! ## Rows -/

/-- The two rows agree on all but `last_checked_at`. -/
structure Same (r r' : TrackedRepository) : Prop where
  id : r.id = r'.id
  owner : r.owner = r'.owner
  name : r.name = r'.name
  tag : r.lastSeenTag = r'.lastSeenTag

theorem Same.refl (r : TrackedRepository) : Same r r := ⟨rfl, rfl, rfl, rfl⟩

theorem Same.trans {a b c : TrackedRepository} (h : Same a b) (h' : Same b c) : Same a c :=
  ⟨h.id.trans h'.id, h.owner.trans h'.owner, h.name.trans h'.name, h.tag.trans h'.tag⟩

/-- The database still has the row as it was read. -/
def Current (s : State) (repo : TrackedRepository) : Prop :=
  ∃ x ∈ s.tracked.rows, Same x repo

variable {a b : TrackedRepository} {t : Tracked}

theorem Tracked.eq_of_id (ha : a ∈ t.rows) (hb : b ∈ t.rows) (h : a.id = b.id) : a = b :=
  List.inj_on_of_nodup_map t.idsUnique ha hb h

/-- A repository is tracked once. -/
theorem Tracked.eq_of_ref (ha : a ∈ t.rows) (hb : b ∈ t.rows) (ho : a.owner = b.owner)
    (hn : a.name = b.name) : a = b :=
  List.inj_on_of_nodup_map t.reposUnique ha hb (by rw [ho, hn])

/-- A row after an update of row `id`. -/
theorem Tracked.mem_touch {now id : Nat} {tag : Option String} {r' : TrackedRepository} :
    r' ∈ (t.touch now tag id).1.rows ↔
      ∃ r ∈ t.rows, r' = if r.id = id then Tracked.touched now tag r else r := by
  refine Table.mem_update.trans (exists_congr fun r => and_congr_right fun _ => ?_)
  simp only [decide_eq_true_eq]
  exact eq_comm

variable {r : TrackedRepository}

/-- The rows read by a scan are those of the table. -/
theorem mem_getAllQuery : r ∈ t.getAllQuery ↔ r ∈ t.rows :=
  (List.perm_insertionSort _ _).mem_iff

/-- A scan visits every repository once. -/
theorem getAllQuery_ids (t : Tracked) : (t.getAllQuery.map TrackedRepository.id).Nodup :=
  (((List.perm_insertionSort _ _).map _).nodup_iff).mpr t.idsUnique

/-! ## The records -/

/-- The tags GitHub has answered for a repository, oldest first. -/
def State.tagsAnswered (s : State) (owner name : String) : List String :=
  (s.answers.filter (fun x => decide (x.1 = ⟨owner, name⟩))).map Prod.snd

/-- The tags written to row `id`, oldest first. -/
def State.tagsWritten (s : State) (id : Nat) : List String :=
  (s.written.filter (fun x => decide (x.1 = id))).map Prod.snd

/-- What a mail is for: repository, tag and address. -/
def Mail.key (m : Mail) : String × String × String := (m.repo, m.release.tagName, m.email)

/-- The tag of `repo` can still be offered: it was answered, and nothing newer
was written. -/
def Offers (s : State) (repo : TrackedRepository) (tag : String) : Prop :=
  UpToDate (s.tagsAnswered repo.owner repo.name) (s.tagsWritten repo.id) tag

/-- What holds of the records in every state. -/
structure Chronicle (D : Config) (s : State) : Prop where
  slashFree : ∀ r ∈ s.tracked.rows, '/' ∉ r.owner.toList
  noReturn : ∀ owner name, NoReturn (s.tagsAnswered owner name)
  answered : ∀ r ∈ s.tracked.rows, ∀ t ∈ s.tagsWritten r.id, t ∈ s.tagsAnswered r.owner r.name
  ordered : ∀ r ∈ s.tracked.rows,
    (s.tagsWritten r.id).Pairwise (Older (s.tagsAnswered r.owner r.name))
  current : ∀ r ∈ s.tracked.rows, ∀ t, (s.tagsWritten r.id).getLast? = some t →
    r.lastSeenTag = some t
  below : ∀ x ∈ s.written, x.1 < s.tracked.nextID
  persisted : ∀ m ∈ s.sent, ∃ r ∈ s.tracked.rows, m.repo = fullName r ∧
    m.release.tagName ∈ s.tagsWritten r.id
  once : (s.sent.map Mail.key).Nodup
  served : ∀ key val, s.lookup key = some val → ∃ r ∈ s.tracked.rows,
    key = releaseKey r.owner r.name ∧ ∀ rel, D.json.unmarshal val = .ok rel → Offers s r rel.tagName
  uncached : D.cached = false → ∀ key, s.redis key = none

variable {D : Config} {s s' : State}

/-- Owners have no slash, so a full name belongs to one row. -/
theorem Chronicle.eq_of_fullName (h : Chronicle D s) (ha : a ∈ s.tracked.rows)
    (hb : b ∈ s.tracked.rows) (heq : fullName a = fullName b) : a = b := by
  obtain ⟨ho, hn⟩ := fullName_inj (h.slashFree a ha) (h.slashFree b hb) heq
  exact Tracked.eq_of_ref ha hb ho hn

/-- So does a cache key. -/
theorem Chronicle.eq_of_key (h : Chronicle D s) (ha : a ∈ s.tracked.rows) (hb : b ∈ s.tracked.rows)
    (heq : releaseKey a.owner a.name = releaseKey b.owner b.name) : a = b := by
  obtain ⟨ho, hn⟩ := releaseKey_inj (h.slashFree a ha) (h.slashFree b hb) heq
  exact Tracked.eq_of_ref ha hb ho hn

/-- What the cache serves for a tracked repository can be offered. -/
theorem Chronicle.offers (h : Chronicle D s) {val : Bytes} {rel : Release} (hr : r ∈ s.tracked.rows)
    (hval : s.lookup (releaseKey r.owner r.name) = some val)
    (hrel : D.json.unmarshal val = .ok rel) : Offers s r rel.tagName := by
  obtain ⟨r', hr', hkey, hserves⟩ := h.served _ val hval
  rw [h.eq_of_key hr hr' hkey]
  exact hserves rel hrel

/-! ## Steps that change no record -/

/-- Nothing is recorded, the rows that were there agree on all but
`last_checked_at`, and Redis serves nothing new. -/
structure Keeps (s s' : State) : Prop where
  rows : ∀ r ∈ s.tracked.rows, ∃ r' ∈ s'.tracked.rows, Same r' r
  answers : s'.answers = s.answers
  written : s'.written = s.written
  sent : s'.sent = s.sent
  lookup : ∀ key val, s'.lookup key = some val → s.lookup key = some val

/-- Nor is there a new row. -/
structure Quiet (s s' : State) : Prop extends Keeps s s' where
  old : ∀ r' ∈ s'.tracked.rows, ∃ r ∈ s.tracked.rows, Same r r'
  nextID : s.tracked.nextID ≤ s'.tracked.nextID
  redis : ∀ key, s.redis key = none → s'.redis key = none

theorem Keeps.tagsAnswered (h : Keeps s s') (owner name : String) :
    s'.tagsAnswered owner name = s.tagsAnswered owner name := by
  simp only [State.tagsAnswered, h.answers]

theorem Keeps.tagsWritten (h : Keeps s s') (id : Nat) : s'.tagsWritten id = s.tagsWritten id := by
  simp only [State.tagsWritten, h.written]

/-- What neither answers, writes nor caches keeps the books. -/
theorem Quiet.chronicle (h : Quiet s s') (hs : Chronicle D s) : Chronicle D s' := by
  -- every row has its counterpart with the same id, name and tag, in both directions
  refine ⟨fun r' hr' => ?_, fun owner name => ?_, fun r' hr' => ?_, fun r' hr' => ?_,
    fun r' hr' => ?_, fun x hx => ?_, fun m hm => ?_, ?_, fun key val hval => ?_, fun hc key => ?_⟩
  · obtain ⟨r, hr, hsame⟩ := h.old r' hr'
    rw [← hsame.owner]
    exact hs.slashFree r hr
  · rw [h.tagsAnswered]
    exact hs.noReturn owner name
  · obtain ⟨r, hr, hsame⟩ := h.old r' hr'
    rw [h.tagsWritten, h.tagsAnswered, ← hsame.id, ← hsame.owner, ← hsame.name]
    exact hs.answered r hr
  · obtain ⟨r, hr, hsame⟩ := h.old r' hr'
    rw [h.tagsWritten, h.tagsAnswered, ← hsame.id, ← hsame.owner, ← hsame.name]
    exact hs.ordered r hr
  · obtain ⟨r, hr, hsame⟩ := h.old r' hr'
    rw [h.tagsWritten, ← hsame.id, ← hsame.tag]
    exact hs.current r hr
  · rw [h.written] at hx
    exact Nat.lt_of_lt_of_le (hs.below x hx) h.nextID
  · rw [h.sent] at hm
    obtain ⟨r, hr, hrepo, htag⟩ := hs.persisted m hm
    obtain ⟨r', hr', hsame⟩ := h.rows r hr
    refine ⟨r', hr', ?_, ?_⟩
    · rw [hrepo, fullName, fullName, hsame.owner, hsame.name]
    · rw [h.tagsWritten, hsame.id]
      exact htag
  · rw [h.sent]
    exact hs.once
  · obtain ⟨r, hr, hkey, hserves⟩ := hs.served key val (h.lookup key val hval)
    obtain ⟨r', hr', hsame⟩ := h.rows r hr
    refine ⟨r', hr', ?_, fun rel hrel => ?_⟩
    · rw [hkey, hsame.owner, hsame.name]
    · have := hserves rel hrel
      unfold Offers at this ⊢
      rw [h.tagsAnswered, h.tagsWritten, hsame.owner, hsame.name, hsame.id]
      exact this
  · exact h.redis key (hs.uncached hc key)

/-- The table may be left alone. -/
theorem Quiet.of_rows (htracked : s'.tracked = s.tracked) (hanswers : s'.answers = s.answers)
    (hwritten : s'.written = s.written) (hsent : s'.sent = s.sent)
    (hlookup : ∀ key val, s'.lookup key = some val → s.lookup key = some val)
    (hredis : ∀ key, s.redis key = none → s'.redis key = none) : Quiet s s' where
  rows r hr := ⟨r, by rw [htracked]; exact hr, .refl r⟩
  old r hr := ⟨r, by rw [← htracked]; exact hr, .refl r⟩
  nextID := by rw [htracked]
  answers := hanswers
  written := hwritten
  sent := hsent
  lookup := hlookup
  redis := hredis

theorem Quiet.refl (s : State) : Quiet s s :=
  .of_rows rfl rfl rfl rfl (fun _ _ h => h) (fun _ h => h)

/-! ## Steps that are recorded -/

/-- The state after GitHub has answered. -/
def State.answer (s : State) (owner name tag : String) : State :=
  { s with answers := s.answers ++ [(⟨owner, name⟩, tag)] }

/-- An answer is recorded for its own repository. -/
theorem tagsAnswered_answer (s : State) (owner name tag o n : String) :
    (s.answer owner name tag).tagsAnswered o n
      = if o = owner ∧ n = name then s.tagsAnswered o n ++ [tag] else s.tagsAnswered o n := by
  simp only [State.answer, State.tagsAnswered, List.filter_append, List.map_append]
  split
  · next h => simp [h.1, h.2]
  · next h =>
    have hne : (⟨owner, name⟩ : Ref) ≠ ⟨o, n⟩ := by
      intro heq
      obtain ⟨rfl, rfl⟩ := Ref.mk.inj heq
      exact h ⟨rfl, rfl⟩
    simp [hne]

/-- An answer that is no return keeps everything in order. -/
theorem Chronicle.answer (h : Chronicle D s) {owner name tag : String}
    (hnew : ¬ Superseded (s.tagsAnswered owner name) tag) :
    Chronicle D (s.answer owner name tag) := by
  -- only the list of this repository grows, and only at its end
  have hcases : ∀ o n, (s.answer owner name tag).tagsAnswered o n = s.tagsAnswered o n ∨
      (s.answer owner name tag).tagsAnswered o n = s.tagsAnswered o n ++ [tag] := by
    intro o n
    rw [tagsAnswered_answer]
    split
    · exact .inr rfl
    · exact .inl rfl
  refine ⟨h.slashFree, fun o n => ?_, fun r hr t ht => ?_, fun r hr => ?_, h.current, h.below,
    h.persisted, h.once, fun key val hval => ?_, h.uncached⟩
  · rw [tagsAnswered_answer]
    split
    · next heq =>
      rw [heq.1, heq.2]
      exact (h.noReturn owner name).snoc hnew
    · exact h.noReturn o n
  · have hold := h.answered r hr t ht
    rcases hcases r.owner r.name with heq | heq <;> rw [heq]
    · exact hold
    · exact List.mem_append_left _ hold
  · have hold := h.ordered r hr
    rcases hcases r.owner r.name with heq | heq <;> rw [heq]
    · exact hold
    · exact hold.imp (fun ho => ho.snoc tag)
  · obtain ⟨r, hr, hkey, hserves⟩ := h.served key val hval
    refine ⟨r, hr, hkey, fun rel hrel => ?_⟩
    have hold := hserves rel hrel
    unfold Offers at hold ⊢
    rcases hcases r.owner r.name with heq | heq <;> rw [heq]
    · exact hold
    · exact hold.snoc tag

/-- The state after `SET`. -/
def State.cache (s : State) (key : String) (value : Bytes) (ttl : Nat) : State :=
  { s with
    redis := Function.update s.redis key
      (some ⟨value, if ttl = 0 then none else some (s.now + ttl)⟩) }

/-- A `SET` changes its own key. -/
theorem lookup_cache (s : State) (key : String) (value : Bytes) (ttl : Nat) (k : String) :
    (s.cache key value ttl).lookup k = if k = key then some value else s.lookup k := by
  simp only [State.cache, State.lookup]
  by_cases hk : k = key
  · subst hk
    rw [if_pos rfl, Function.update_self]
    by_cases httl : ttl = 0
    · simp [httl]
    · simp [httl, Nat.pos_of_ne_zero httl]
  · rw [if_neg hk, Function.update_of_ne hk]
    rfl

/-- A release that can be offered may be cached. -/
theorem Chronicle.cache (h : Chronicle D s) {value : Bytes} {ttl : Nat} (hr : r ∈ s.tracked.rows)
    (hcached : D.cached = true)
    (hoffers : ∀ rel, D.json.unmarshal value = .ok rel → Offers s r rel.tagName) :
    Chronicle D (s.cache (releaseKey r.owner r.name) value ttl) := by
  refine ⟨h.slashFree, h.noReturn, h.answered, h.ordered, h.current, h.below, h.persisted, h.once,
    fun key val hval => ?_, fun hc => ?_⟩
  · rw [lookup_cache] at hval
    split at hval
    · next hkey =>
      cases hval
      exact ⟨r, hr, hkey, hoffers⟩
    · exact h.served key val hval
  · rw [hcached] at hc
    cases hc

/-- Sending a mail that has not been sent, for a tag that has been written. -/
theorem Chronicle.send (h : Chronicle D s) {mail : Mail} (hr : r ∈ s.tracked.rows)
    (hrepo : mail.repo = fullName r) (htag : mail.release.tagName ∈ s.tagsWritten r.id)
    (hnew : ∀ m ∈ s.sent, m.key ≠ mail.key) : Chronicle D { s with sent := s.sent ++ [mail] } := by
  refine ⟨h.slashFree, h.noReturn, h.answered, h.ordered, h.current, h.below, fun m hm => ?_, ?_,
    h.served, h.uncached⟩
  · rcases List.mem_append.mp hm with hm | hm
    · exact h.persisted m hm
    · rw [List.mem_singleton.mp hm]
      exact ⟨r, hr, hrepo, htag⟩
  · rw [List.map_append, List.nodup_append]
    refine ⟨h.once, by simp, fun a ha b hb hab => ?_⟩
    obtain ⟨m, hm, rfl⟩ := List.mem_map.mp ha
    rw [List.map_singleton, List.mem_singleton] at hb
    exact hnew m hm (hab.trans hb)

/-! ## Writing a tag -/

variable {tag : String} {x : TrackedRepository}

theorem see_written (hx : x ∈ s.tracked.rows) :
    (s.see tag x.id).written = s.written ++ [(x.id, tag)] := by
  have hcount : (s.tracked.updateLastSeenQuery s.now tag x.id).2 ≠ 0 := by
    refine Nat.pos_iff_ne_zero.mp (List.countP_pos_iff.mpr ⟨x, hx, ?_⟩)
    exact decide_eq_true rfl
  simp only [State.see, if_neg hcount]

/-- A tag is recorded for the row it was written to. -/
theorem tagsWritten_see (hx : x ∈ s.tracked.rows) (id : Nat) : (s.see tag x.id).tagsWritten id
      = if id = x.id then s.tagsWritten id ++ [tag] else s.tagsWritten id := by
  rw [State.tagsWritten, see_written hx, State.tagsWritten, List.filter_append, List.map_append]
  split
  · next h => simp [h]
  · next h => simp [Ne.symm h]

/-- A row after the write: the row that was written has the tag. -/
theorem mem_see {id : Nat} {r' : TrackedRepository} :
    r' ∈ (s.see tag id).tracked.rows ↔ ∃ r ∈ s.tracked.rows,
      r' = if r.id = id then Tracked.touched s.now (some tag) r else r :=
  Tracked.mem_touch

/-- Other rows are as they were. -/
theorem Current.see {id : Nat} {repo : TrackedRepository} (h : Current s repo)
    (hne : repo.id ≠ id) : Current (s.see tag id) repo := by
  obtain ⟨x, hx, hsame⟩ := h
  refine ⟨x, mem_see.mpr ⟨x, hx, ?_⟩, hsame⟩
  rw [if_neg (fun heq => hne (hsame.id.symm.trans heq))]

section See

variable {x : TrackedRepository} {tag : String}

/-- Every row after a tag is written comes from one with the same names. -/
theorem see_row (hx : x ∈ s.tracked.rows) {r' : TrackedRepository}
    (hr' : r' ∈ (s.see tag x.id).tracked.rows) :
    ∃ r ∈ s.tracked.rows, r'.id = r.id ∧ r'.owner = r.owner ∧ r'.name = r.name ∧
      ((r = x ∧ r'.lastSeenTag = some tag) ∨ (r.id ≠ x.id ∧ r' = r)) := by
  obtain ⟨r, hr, rfl⟩ := mem_see.mp hr'
  refine ⟨r, hr, ?_⟩
  split
  · next hid => exact ⟨rfl, rfl, rfl, .inl ⟨Tracked.eq_of_id hr hx hid, rfl⟩⟩
  · next hid => exact ⟨rfl, rfl, rfl, .inr ⟨hid, rfl⟩⟩

/-- No row is lost. -/
theorem see_kept {r : TrackedRepository} (hr : r ∈ s.tracked.rows) :
    ∃ r' ∈ (s.see tag x.id).tracked.rows, r'.id = r.id ∧ r'.owner = r.owner ∧
      r'.name = r.name := by
  refine ⟨_, mem_see.mpr ⟨r, hr, rfl⟩, ?_⟩
  split <;> exact ⟨rfl, rfl, rfl⟩

/-- What is on offer stays so, if it is the tag that is written to its row. -/
theorem Offers.see {r r' : TrackedRepository} {t : String} (hold : Offers s r t)
    (hx : x ∈ s.tracked.rows) (hsame : r.id = x.id → t = tag) (hid : r'.id = r.id)
    (ho : r'.owner = r.owner) (hn : r'.name = r.name) : Offers (s.see tag x.id) r' t := by
  unfold Offers at hold ⊢
  rw [tagsWritten_see hx, hid, ho, hn]
  split
  · next hidx =>
    refine ⟨hold.1, fun w hw => ?_⟩
    rcases List.mem_append.mp hw with hw | hw
    · exact hold.2 w hw
    · exact .inl ((List.mem_singleton.mp hw).trans (hsame hidx).symm)
  · exact hold

end See

/-- A tag that is on offer, and is neither in the row nor contradicted by the
cache, may be written. -/
theorem Chronicle.see (h : Chronicle D s)
    (hx : x ∈ s.tracked.rows) (hoffers : Offers s x tag) (hnew : x.lastSeenTag ≠ some tag)
    (hcache : ∀ val rel, s.lookup (releaseKey x.owner x.name) = some val →
      D.json.unmarshal val = .ok rel → rel.tagName = tag) :
    Chronicle D (s.see tag x.id) := by
  have hlast : (s.tagsWritten x.id).getLast? ≠ some tag :=
    fun hl => hnew (h.current x hx tag hl)
  refine ⟨fun r' hr' => ?_, h.noReturn, fun r' hr' t ht => ?_, fun r' hr' => ?_,
    fun r' hr' t ht => ?_, fun y hy => ?_, fun m hm => ?_, h.once, fun key val hval => ?_,
    h.uncached⟩
  · obtain ⟨r, hr, _, ho, _⟩ := see_row hx hr'
    rw [ho]
    exact h.slashFree r hr
  · obtain ⟨r, hr, hid, ho, hn, hcase⟩ := see_row hx hr'
    rw [tagsWritten_see hx, hid] at ht
    rw [ho, hn]
    rcases hcase with ⟨rfl, _⟩ | ⟨hne, _⟩
    · rw [if_pos rfl] at ht
      rcases List.mem_append.mp ht with ht | ht
      · exact h.answered r hr t ht
      · rw [List.mem_singleton.mp ht]
        exact hoffers.1
    · rw [if_neg hne] at ht
      exact h.answered r hr t ht
  · obtain ⟨r, hr, hid, ho, hn, hcase⟩ := see_row hx hr'
    rw [tagsWritten_see hx, hid, ho, hn]
    rcases hcase with ⟨rfl, _⟩ | ⟨hne, _⟩
    · rw [if_pos rfl]
      exact hoffers.record (h.noReturn _ _) (h.ordered r hr) hlast
    · rw [if_neg hne]
      exact h.ordered r hr
  · obtain ⟨r, hr, hid, _, _, hcase⟩ := see_row hx hr'
    rw [tagsWritten_see hx, hid] at ht
    rcases hcase with ⟨rfl, htag⟩ | ⟨hne, rfl⟩
    · rw [if_pos rfl, List.getLast?_concat] at ht
      rw [htag, ht]
    · rw [if_neg hne] at ht
      exact h.current r' hr t ht
  · rw [see_written hx] at hy
    rcases List.mem_append.mp hy with hy | hy
    · exact h.below y hy
    · rw [List.mem_singleton.mp hy]
      exact s.tracked.idsBelow x hx
  · obtain ⟨r, hr, hrepo, htag⟩ := h.persisted m hm
    obtain ⟨r', hr', hid, ho, hn⟩ := see_kept hr
    refine ⟨r', hr', ?_, ?_⟩
    · rw [hrepo, fullName, fullName, ho, hn]
    · rw [tagsWritten_see hx, hid]
      split
      · exact List.mem_append_left _ htag
      · exact htag
  · obtain ⟨r, hr, hkey, hserves⟩ := h.served key val hval
    obtain ⟨r', hr', hid, ho, hn⟩ := see_kept hr
    refine ⟨r', hr', by rw [hkey, ho, hn], fun rel hrel => ?_⟩
    refine (hserves rel hrel).see hx (fun hidx => ?_) hid ho hn
    -- what the cache serves for the row is the tag just written
    obtain rfl := Tracked.eq_of_id hr hx hidx
    exact hcache val rel (hkey ▸ hval) hrel

/-- A tag that may be written has not been mailed. -/
theorem Chronicle.unsent (h : Chronicle D s) (hx : x ∈ s.tracked.rows) (hoffers : Offers s x tag)
    (hnew : x.lastSeenTag ≠ some tag) :
    ∀ m ∈ s.sent, m.repo = fullName x → m.release.tagName ≠ tag := by
  rintro m hm hrepo rfl
  obtain ⟨r, hr, hrepo', htag⟩ := h.persisted m hm
  obtain rfl := h.eq_of_fullName hx hr (hrepo.symm.trans hrepo')
  have hlast : (s.tagsWritten x.id).getLast? ≠ some m.release.tagName :=
    fun hl => hnew (h.current x hx _ hl)
  exact (hoffers.newer (h.noReturn _ _) (h.ordered x hx) hlast _ htag).1 rfl

/-! ## Tracking a repository -/

/-- Tracking a new repository keeps the books. -/
theorem Chronicle.upsert (h : Chronicle D s) {owner name : String} (howner : '/' ∉ owner.toList) :
    Chronicle D { s with tracked := s.tracked.upsertQuery owner name } := by
  unfold Tracked.upsertQuery
  split
  · exact h
  · next hfresh =>
    -- the id of the new row was never written to
    have hnone : s.tagsWritten s.tracked.nextID = [] := by
      rw [State.tagsWritten, List.map_eq_nil_iff, List.filter_eq_nil_iff]
      intro x hx hid
      have := h.below x hx
      rw [of_decide_eq_true hid] at this
      exact Nat.lt_irrefl _ this
    refine ⟨fun r hr => ?_, h.noReturn, fun r hr => ?_, fun r hr => ?_, fun r hr => ?_,
      fun x hx => Nat.lt_succ_of_lt (h.below x hx), fun m hm => ?_, h.once, fun key val hval => ?_,
      h.uncached⟩
    · rcases List.mem_append.mp hr with hr | hr
      · exact h.slashFree r hr
      · rw [List.mem_singleton.mp hr]
        exact howner
    · rcases List.mem_append.mp hr with hr | hr
      · exact h.answered r hr
      · rw [List.mem_singleton.mp hr]
        intro t ht
        change t ∈ s.tagsWritten s.tracked.nextID at ht
        rw [hnone] at ht
        cases ht
    · rcases List.mem_append.mp hr with hr | hr
      · exact h.ordered r hr
      · rw [List.mem_singleton.mp hr]
        show (s.tagsWritten s.tracked.nextID).Pairwise _
        rw [hnone]
        exact .nil
    · rcases List.mem_append.mp hr with hr | hr
      · exact h.current r hr
      · rw [List.mem_singleton.mp hr]
        intro t ht
        change (s.tagsWritten s.tracked.nextID).getLast? = some t at ht
        rw [hnone] at ht
        cases ht
    · obtain ⟨r, hr, hrest⟩ := h.persisted m hm
      exact ⟨r, List.mem_append_left _ hr, hrest⟩
    · obtain ⟨r, hr, hrest⟩ := h.served key val hval
      exact ⟨r, List.mem_append_left _ hr, hrest⟩

end ReleaseNotifier.Poller
