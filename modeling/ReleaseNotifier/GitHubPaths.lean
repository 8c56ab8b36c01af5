/-
The URLs of `internal/client/github/client.go`, and what a reference can do to
them.

Owner and name come from `ParseRef` and go through `url.PathEscape`, which has
nothing to escape in them. So both URLs have the path they look like, segment by
segment. What escaping does not prevent is a segment that is all dots: `nameRe`
accepts `.` and `..`, `PathEscape` leaves dots alone, and whoever removes dot
segments on the way finds another resource.
-/
import ReleaseNotifier.RefGrammar
import ReleaseNotifier.Text.DotSegments

set_option autoImplicit false

namespace ReleaseNotifier.GitHub

open Text Repository

/-! ## `url.PathEscape` -/

/-- A digit of `upperhex`. -/
def upperhex (n : Nat) : UInt8 := UInt8.ofNat (if n < 10 then 0x30 + n else 0x37 + n)

/-- The bytes other than letters and digits that stand for themselves in a path
segment: `-`, `_`, `.`, `~`, `$`, `&`, `+`, `:`, `=` and `@`. -/
def segmentMarks : List UInt8 := [0x2d, 0x5f, 0x2e, 0x7e, 0x24, 0x26, 0x2b, 0x3a, 0x3d, 0x40]

/-- `shouldEscape` of package `url`, for a path segment. -/
def shouldEscape (b : UInt8) : Bool := !(decide (IsAlnum b) || decide (b ∈ segmentMarks))

/-- `url.PathEscape`. -/
def pathEscape (s : Bytes) : Bytes :=
  s.flatMap (fun b =>
    if shouldEscape b then [0x25, upperhex (b.toNat / 16), upperhex (b.toNat % 16)] else [b])

/-! ## `client.go` -/

/-- The base URL that `NewClient` sets. -/
def baseURL : Bytes := utf8 "https://api.github.com"

/-- `repoURL` in `RepoExists`. -/
def repoURL (owner name : Bytes) : Bytes :=
  baseURL ++ utf8 "/repos/" ++ pathEscape owner ++ utf8 "/" ++ pathEscape name

/-- `releaseURL` in `GetLatestRelease`. -/
def releaseURL (owner name : Bytes) : Bytes :=
  baseURL ++ utf8 "/repos/" ++ pathEscape owner ++ utf8 "/" ++ pathEscape name ++
    utf8 "/releases/latest"

/-! ## Segments of the paths -/

/-- The segments that `RepoExists` means. -/
def repoSegments (r : Repository.Ref) : List Bytes := [utf8 "repos", r.owner, r.name]

/-- The segments that `GetLatestRelease` means. -/
def releaseSegments (r : Repository.Ref) : List Bytes :=
  [utf8 "repos", r.owner, r.name, utf8 "releases", utf8 "latest"]

/-- A string of letters, digits, dots, underscores and hyphens. -/
def Plain (s : Bytes) : Prop := ∀ b ∈ s, IsAlnum b ∨ b = 0x2e ∨ b = 0x5f ∨ b = hyphen

instance (s : Bytes) : Decidable (Plain s) := inferInstanceAs (Decidable (∀ b ∈ s, _))

theorem plain_name {s : Bytes} (h : IsName s) : Plain s := h.chars

/-- The grammar of owners and names leaves nothing to escape. -/
theorem plain_owner {s : Bytes} (h : IsOwner s) : Plain s := by
  intro b hb
  rcases h.chars b hb with hb | hb
  · exact .inl hb
  · exact .inr (.inr (.inr hb))

section Plain

variable {s : Bytes}

/-- A plain string has no byte that is escaped, and none that ends a segment or a
path. -/
theorem Plain.byte (h : Plain s) {b : UInt8} (hb : b ∈ s) :
    shouldEscape b = false ∧ b ∉ [0x23, 0x3f, Path.slash] := by
  rcases h b hb with hb | rfl | rfl | rfl
  · refine ⟨by simp [shouldEscape, hb], fun hmem => ?_⟩
    have hall : [0x23, 0x3f, Path.slash].all (fun c => !decide (IsAlnum c)) = true := by decide
    exact of_decide_eq_false (Bool.not_eq_true' _ ▸ List.all_eq_true.mp hall b hmem) hb
  · decide
  · decide
  · decide

theorem Plain.slash_not_mem (h : Plain s) : Path.slash ∉ s :=
  fun hmem => (h.byte hmem).2 (by decide)

/-- Owner and name need no escaping. -/
theorem pathEscape_plain (h : Plain s) : pathEscape s = s := by
  induction s with
  | nil => rfl
  | cons b s ih =>
    have hrest : Plain s := fun c hc => h c (List.mem_cons_of_mem _ hc)
    rw [pathEscape, List.flatMap_cons, (h.byte List.mem_cons_self).1]
    exact congrArg _ (ih hrest)

/-- A URL of plain segments has the path of these segments. -/
theorem ofURL_plain {first : Bytes} {segments : List Bytes} (h : ∀ s ∈ first :: segments, Plain s) :
    Path.ofURL (baseURL ++ Path.join (first :: segments)) = Path.join (first :: segments) := by
  have hpath : ∀ b ∈ Path.join (first :: segments), b ∉ [0x23, 0x3f] := by
    intro b hb hmark
    obtain ⟨s, hs, hb⟩ := List.mem_flatMap.mp hb
    rcases List.mem_cons.mp hb with rfl | hb
    · exact absurd hmark (by decide)
    · refine ((h s hs).byte hb).2 ?_
      simp only [List.mem_cons, List.not_mem_nil, or_false] at hmark ⊢
      exact hmark.elim .inl (fun heq => .inr (.inl heq))
  have hbase : baseURL = utf8 "https" ++ 0x3a :: Path.slash :: Path.slash :: utf8 "api.github.com" := by
    decide
  rw [hbase, List.append_assoc, List.cons_append, List.cons_append, List.cons_append]
  exact Path.ofURL_append (by decide +kernel) (by decide +kernel) hpath rfl

end Plain

section Accepted

variable {r : Repository.Ref}

/-- The URL is the base and the segments. -/
theorem repoURL_eq (howner : IsOwner r.owner) (hname : IsName r.name) :
    repoURL r.owner r.name = baseURL ++ Path.join (repoSegments r) := by
  have hrepos : utf8 "/repos/" = Path.slash :: utf8 "repos" ++ [Path.slash] := by decide
  have hslash : utf8 "/" = [Path.slash] := by decide
  rw [repoURL, pathEscape_plain (plain_owner howner), pathEscape_plain (plain_name hname), hrepos,
    hslash]
  simp [repoSegments]

theorem releaseURL_eq (howner : IsOwner r.owner) (hname : IsName r.name) :
    releaseURL r.owner r.name = baseURL ++ Path.join (releaseSegments r) := by
  have hlatest : utf8 "/releases/latest" = Path.join [utf8 "releases", utf8 "latest"] := by
    decide
  have hsegments : releaseSegments r = repoSegments r ++ [utf8 "releases", utf8 "latest"] := rfl
  have hrepo := repoURL_eq howner hname
  rw [repoURL] at hrepo
  rw [releaseURL, hrepo, hlatest, hsegments, Path.join_append, List.append_assoc]

/-- The segments that are always the same. -/
theorem plain_fixed : Plain (utf8 "repos") ∧ Plain (utf8 "releases") ∧ Plain (utf8 "latest") := by
  decide +kernel

theorem plain_repoSegments (howner : IsOwner r.owner) (hname : IsName r.name) :
    ∀ s ∈ repoSegments r, Plain s := by
  simp [repoSegments, plain_fixed.1, plain_owner howner, plain_name hname]

theorem plain_releaseSegments (howner : IsOwner r.owner) (hname : IsName r.name) :
    ∀ s ∈ releaseSegments r, Plain s := by
  obtain ⟨hrepos, hreleases, hlatest⟩ := plain_fixed
  simp [releaseSegments, hrepos, hreleases, hlatest, plain_owner howner, plain_name hname]

/-- The path of the request is made of these segments. -/
theorem ofURL_repoURL (howner : IsOwner r.owner) (hname : IsName r.name) :
    Path.ofURL (repoURL r.owner r.name) = Path.join (repoSegments r) := by
  rw [repoURL_eq howner hname]
  exact ofURL_plain (plain_repoSegments howner hname)

theorem ofURL_releaseURL (howner : IsOwner r.owner) (hname : IsName r.name) :
    Path.ofURL (releaseURL r.owner r.name) = Path.join (releaseSegments r) := by
  rw [releaseURL_eq howner hname]
  exact ofURL_plain (plain_releaseSegments howner hname)

/-- An owner is no dot segment: it has no dot. -/
theorem ordinary_owner (howner : IsOwner r.owner) : Path.Ordinary r.owner := by
  have hdot : Path.dot ∉ r.owner := fun h => absurd (howner.chars _ h) (by decide)
  refine ⟨(plain_owner howner).slash_not_mem, fun h => hdot ?_, fun h => hdot ?_⟩
  · rw [h]
    exact List.mem_cons_self
  · rw [h]
    exact List.mem_cons_self

end Accepted

/-! ## Removal of dot segments -/

/-- Nor is a fixed segment a dot segment. -/
theorem ordinary_repos : Path.Ordinary (utf8 "repos") :=
  ⟨by decide, by decide, by decide⟩

theorem ordinary_latest : ∀ s ∈ [utf8 "releases", utf8 "latest"], Path.Ordinary s := by
  have hreleases : Path.Ordinary (utf8 "releases") :=
    ⟨by decide, by decide, by decide⟩
  have hlatest : Path.Ordinary (utf8 "latest") :=
    ⟨by decide, by decide, by decide⟩
  simp [hreleases, hlatest]

section Below

variable {r : Repository.Ref} (howner : IsOwner r.owner) {after : List Bytes}
  (hafter : ∀ s ∈ after, Path.Ordinary s)

include howner hafter

/-- Under the name `.` the path is the owner's. -/
theorem removeDotSegments_of_dot (h : r.name = [Path.dot]) :
    Path.removeDotSegments (Path.join (repoSegments r ++ after)) =
      Path.join [utf8 "repos", r.owner] ++ Path.behind after := by
  have hbefore : ∀ s ∈ [utf8 "repos", r.owner], Path.Ordinary s := by
    simp [ordinary_repos, ordinary_owner howner]
  rw [repoSegments, h]
  exact Path.removeDotSegments_dot hbefore hafter

/-- Under the name `..` the path has lost the owner. -/
theorem removeDotSegments_of_dots (h : r.name = [Path.dot, Path.dot]) :
    Path.removeDotSegments (Path.join (repoSegments r ++ after)) =
      Path.join [utf8 "repos"] ++ Path.behind after := by
  have hbefore : ∀ s ∈ [utf8 "repos"], Path.Ordinary s := by
    simp [ordinary_repos]
  rw [repoSegments, h]
  exact Path.removeDotSegments_dots hbefore (ordinary_owner howner) hafter

/-- A path below an owner and a name stays as it is unless the name is all dots, one or
two. -/
theorem removeDotSegments_below_iff (hname : IsName r.name) :
    Path.removeDotSegments (Path.join (repoSegments r ++ after)) =
        Path.join (repoSegments r ++ after) ↔
      r.name ≠ [Path.dot] ∧ r.name ≠ [Path.dot, Path.dot] := by
  have hbehind := Path.length_behind after
  constructor
  · -- the path has become shorter
    intro h
    refine ⟨fun hdot => ?_, fun hdots => ?_⟩
    · rw [removeDotSegments_of_dot howner hafter hdot] at h
      have hlength := congrArg List.length h
      simp only [repoSegments, hdot, Path.join_append, Path.join_cons, Path.join_nil,
        List.length_append, List.length_cons, List.length_nil] at hlength
      omega
    · rw [removeDotSegments_of_dots howner hafter hdots] at h
      have hlength := congrArg List.length h
      simp only [repoSegments, hdots, Path.join_append, Path.join_cons, Path.join_nil,
        List.length_append, List.length_cons, List.length_nil] at hlength
      omega
  · rintro ⟨hdot, hdots⟩
    have hordinary : Path.Ordinary r.name := ⟨(plain_name hname).slash_not_mem, hdot, hdots⟩
    refine Path.removeDotSegments_join (List.forall_mem_append.mpr ⟨?_, hafter⟩)
    simp [repoSegments, ordinary_repos, ordinary_owner howner, hordinary]

end Below

/-- The paths of the requests have the segments they are meant to have, for every
reference; they stay what they are when dot segments are removed exactly if the name
is neither `.` nor `..`. -/
theorem paths_steady_iff (raw : Bytes) (r : Repository.Ref) (h : Repository.parseRef raw = .ok r) :
    Strings.split (Path.ofURL (repoURL r.owner r.name)) Path.slash = [] :: repoSegments r ∧
      Strings.split (Path.ofURL (releaseURL r.owner r.name)) Path.slash = [] :: releaseSegments r ∧
      ((Path.removeDotSegments (Path.ofURL (repoURL r.owner r.name)) =
            Path.ofURL (repoURL r.owner r.name) ∧
          Path.removeDotSegments (Path.ofURL (releaseURL r.owner r.name)) =
            Path.ofURL (releaseURL r.owner r.name)) ↔
        r.name ≠ utf8 "." ∧ r.name ≠ utf8 "..") := by
  obtain ⟨-, howner, hname⟩ := parseRef_eq_ok.mp h
  have hrepo := plain_repoSegments howner hname
  have hrelease := plain_releaseSegments howner hname
  have hdot : utf8 "." = [Path.dot] := by decide
  have hdots : utf8 ".." = [Path.dot, Path.dot] := by decide
  rw [ofURL_repoURL howner hname, ofURL_releaseURL howner hname, hdot, hdots]
  refine ⟨Path.split_join (fun s hs => (hrepo s hs).slash_not_mem),
    Path.split_join (fun s hs => (hrelease s hs).slash_not_mem), ?_⟩
  have hfirst := removeDotSegments_below_iff howner (List.forall_mem_nil _) hname
  have hsecond := removeDotSegments_below_iff howner ordinary_latest hname
  rw [List.append_nil] at hfirst
  exact ⟨fun hsteady => hfirst.mp hsteady.1, fun hne => ⟨hfirst.mpr hne, hsecond.mpr hne⟩⟩

/-- A dot inside a name is no dot segment. -/
theorem paths_steady_sample :
    Repository.parseRef (utf8 "a/b.c") = .ok ⟨utf8 "a", utf8 "b.c"⟩ ∧
      Path.removeDotSegments (Path.ofURL (repoURL (utf8 "a") (utf8 "b.c"))) =
        Path.ofURL (repoURL (utf8 "a") (utf8 "b.c")) := by
  have hparse : Repository.parseRef (utf8 "a/b.c") = .ok ⟨utf8 "a", utf8 "b.c"⟩ := by
    decide +kernel
  have hsteady := (paths_steady_iff _ _ hparse).2.2.mpr ⟨by decide, by decide⟩
  exact ⟨hparse, hsteady.1⟩

/-- The reference `a/..` asks for `/repos/` and for `/repos/releases/latest`, which
belong to no repository of `a`. -/
theorem paths_unsteady :
    Repository.parseRef (utf8 "a/..") = .ok ⟨utf8 "a", utf8 ".."⟩ ∧
      Path.ofURL (repoURL (utf8 "a") (utf8 "..")) = utf8 "/repos/a/.." ∧
      Path.removeDotSegments (utf8 "/repos/a/..") = utf8 "/repos/" ∧
      Path.ofURL (releaseURL (utf8 "a") (utf8 "..")) = utf8 "/repos/a/../releases/latest" ∧
      Path.removeDotSegments (utf8 "/repos/a/../releases/latest") = utf8 "/repos/releases/latest" := by
  refine ⟨?_, ?_, ?_, ?_, ?_⟩
  · decide +kernel
  · decide
  · decide
  · decide
  · decide

end ReleaseNotifier.GitHub
