/-
The path of a URL, and the removal of its dot segments as RFC 3986 gives it in
section 5.2.4: an input buffer, an output buffer, and five rules that are tried in
order until the input is empty.

`join` puts segments together. A path whose segments are all ordinary is left as it
is (`removeDotSegments_join`); a segment `.` disappears, and a segment `..` takes
the one before it along.
-/
import ReleaseNotifier.Text.Strings

set_option autoImplicit false

namespace Text.Path

/-! ## The algorithm -/

def slash : UInt8 := 0x2f

def dot : UInt8 := 0x2e

/-- The output without its last segment and the slash before that. -/
def dropSegment (out : List UInt8) : List UInt8 := (out.rdropWhile (fun b => b != slash)).dropLast

/-- The first segment of the input, with the slash before it if there is one, and the
rest. -/
def firstSegment : List UInt8 → List UInt8 × List UInt8
  | [] => ([], [])
  | b :: input =>
    let (segment, rest) := input.span (fun b => b != slash)
    (b :: segment, rest)

/-- One round of the loop, on the output and the input. -/
def step (out input : List UInt8) : List UInt8 × List UInt8 :=
  -- A
  if [dot, dot, slash] <+: input then (out, input.drop 3)
  else if [dot, slash] <+: input then (out, input.drop 2)
  -- B
  else if [slash, dot, slash] <+: input then (out, input.drop 2)
  else if input = [slash, dot] then (out, [slash])
  -- C
  else if [slash, dot, dot, slash] <+: input then (dropSegment out, input.drop 3)
  else if input = [slash, dot, dot] then (dropSegment out, [slash])
  -- D
  else if input = [dot] ∨ input = [dot, dot] then (out, [])
  -- E
  else (out ++ (firstSegment input).1, (firstSegment input).2)

/-- The loop, for at most `fuel` rounds. -/
def loop : Nat → List UInt8 → List UInt8 → List UInt8
  | 0, out, _ => out
  | fuel + 1, out, input =>
    if input = [] then out else loop fuel (step out input).1 (step out input).2

/-- The loop to its end: every round takes something from the input. -/
def remove (out input : List UInt8) : List UInt8 := loop input.length out input

/-- `remove_dot_segments`. -/
def removeDotSegments (path : List UInt8) : List UInt8 := remove [] path

theorem length_firstSegment (b : UInt8) (input : List UInt8) :
    (firstSegment (b :: input)).2.length < (b :: input).length := by
  rw [firstSegment, List.span_eq_takeWhile_dropWhile]
  exact Nat.lt_succ_of_le (List.length_dropWhile_le _ _)

variable {input : List UInt8}

/-- Every step shortens the input, so the input's length is fuel enough. -/
theorem length_step (out : List UInt8) (h : input ≠ []) :
    (step out input).2.length < input.length := by
  obtain ⟨b, input, rfl⟩ := List.exists_cons_of_ne_nil h
  have hdrop : ∀ n, 0 < n → ((b :: input).drop n).length < (b :: input).length := by
    intro n hn
    rw [List.length_drop, List.length_cons]
    omega
  unfold step
  split
  · exact hdrop 3 (by decide)
  split
  · exact hdrop 2 (by decide)
  split
  · exact hdrop 2 (by decide)
  split
  · next heq => simp [heq]
  split
  · exact hdrop 3 (by decide)
  split
  · next heq => simp [heq]
  split
  · simp
  · exact length_firstSegment b input

theorem loop_nil (fuel : Nat) (out : List UInt8) : loop fuel out [] = out := by
  cases fuel with
  | zero => rfl
  | succ fuel => simp [loop]

/-- More rounds than there are bytes make no difference. -/
theorem loop_fuel {n m : Nat} (hn : input.length ≤ n) (hm : input.length ≤ m) (out : List UInt8) :
    loop n out input = loop m out input := by
  induction n generalizing m input out with
  | zero => rw [List.length_eq_zero_iff.mp (Nat.le_zero.mp hn), loop_nil, loop_nil]
  | succ n ih =>
    cases input with
    | nil => rw [loop_nil, loop_nil]
    | cons b input =>
      cases m with
      | zero => exact absurd hm (by simp)
      | succ m =>
        have hlt := length_step out (List.cons_ne_nil b input)
        rw [loop, loop, if_neg (List.cons_ne_nil b input), if_neg (List.cons_ne_nil b input)]
        exact ih (by omega) (by omega) _

@[simp] theorem remove_nil (out : List UInt8) : remove out [] = out := rfl

/-- The loop, without its fuel. -/
theorem remove_step (out : List UInt8) (h : input ≠ []) :
    remove out input = remove (step out input).1 (step out input).2 := by
  have hlt := length_step out h
  obtain ⟨n, hn⟩ : ∃ n, input.length = n + 1 := ⟨input.length - 1, by omega⟩
  rw [remove, hn, loop, if_neg h]
  exact loop_fuel (by omega) (Nat.le_refl _) _

/-! ## Segments -/

/-- A path of segments, a slash before each. -/
def join (segments : List (List UInt8)) : List UInt8 := segments.flatMap (fun s => slash :: s)

@[simp] theorem join_nil : join [] = [] := rfl

@[simp] theorem join_cons (s : List UInt8) (segments : List (List UInt8)) :
    join (s :: segments) = slash :: s ++ join segments := rfl

theorem join_ne_nil (s : List UInt8) (segments : List (List UInt8)) : join (s :: segments) ≠ [] :=
  List.cons_ne_nil _ _

@[simp] theorem join_append (segments segments' : List (List UInt8)) :
    join (segments ++ segments') = join segments ++ join segments' :=
  List.flatMap_append

variable {segments : List (List UInt8)}

/-- Splitting undoes joining for segments without a slash. -/
theorem split_append_join {s : List UInt8} (hs : slash ∉ s) (h : ∀ t ∈ segments, slash ∉ t) :
    Strings.split (s ++ join segments) slash = s :: segments := by
  induction segments generalizing s with
  | nil => rw [join_nil, List.append_nil, Strings.split, List.splitOn_eq_singleton hs]
  | cons t segments ih =>
    obtain ⟨ht, hsegments⟩ := List.forall_mem_cons.mp h
    rw [join_cons, List.cons_append, Strings.split, List.splitOn_append_cons_self_of_not_mem hs]
    exact congrArg _ (ih ht hsegments)

/-- Splitting a path finds its segments, after the empty one before the first slash. -/
theorem split_join (h : ∀ s ∈ segments, slash ∉ s) :
    Strings.split (join segments) slash = [] :: segments :=
  split_append_join List.not_mem_nil h

/-- Nothing, or the beginning of another segment. -/
def Boundary (rest : List UInt8) : Prop := rest = [] ∨ ∃ tail, rest = slash :: tail

theorem boundary_join (segments : List (List UInt8)) : Boundary (join segments) := by
  cases segments with
  | nil => exact .inl rfl
  | cons s segments => exact .inr ⟨_, rfl⟩

/-- A segment that is neither `.` nor `..`. -/
structure Ordinary (s : List UInt8) : Prop where
  noSlash : slash ∉ s
  neDot : s ≠ [dot]
  neDots : s ≠ [dot, dot]

section Segment

variable {s w rest tail : List UInt8}

/-- A first segment ends at the first slash, so it can be read off. -/
theorem eq_of_append_eq (hs : slash ∉ s) (hrest : Boundary rest) (hw : slash ∉ w)
    (h : s ++ rest = w ++ slash :: tail) : s = w := by
  rcases hrest with rfl | ⟨tail', rfl⟩
  · exact absurd (by rw [← List.append_nil s, h]; simp) hs
  · have hcut := Strings.cut_append hs tail'
    rw [h, Strings.cut_append hw] at hcut
    cases hcut
    rfl

theorem eq_of_append_eq_nil (hrest : Boundary rest) (hw : slash ∉ w) (h : s ++ rest = w) :
    s = w := by
  rcases hrest with rfl | ⟨tail, rfl⟩
  · rwa [List.append_nil] at h
  · exact absurd (by rw [← h]; simp) hw

/-- The segment that a step moves is the one that was joined in front. -/
theorem firstSegment_append (hs : slash ∉ s) (hrest : Boundary rest) :
    firstSegment (slash :: (s ++ rest)) = (slash :: s, rest) := by
  rcases hrest with rfl | ⟨tail, rfl⟩
  · rw [firstSegment, List.append_nil, span_of_notMem hs]
  · rw [firstSegment, span_append_cons hs]

/-- An ordinary segment is moved to the output. -/
theorem step_ordinary (hs : Ordinary s) (hrest : Boundary rest) (out : List UInt8) :
    step out (slash :: (s ++ rest)) = (out ++ slash :: s, rest) := by
  have hA : ∀ w : List UInt8, ¬ dot :: w <+: slash :: (s ++ rest) := by
    intro w h
    exact absurd (List.cons_prefix_cons.mp h).1 (by decide)
  have hprefix : ∀ w : List UInt8, slash ∉ w → s ≠ w →
      ¬ slash :: (w ++ [slash]) <+: slash :: (s ++ rest) := by
    intro w hw hne h
    obtain ⟨t, ht⟩ := (List.cons_prefix_cons.mp h).2
    rw [List.append_assoc, List.singleton_append] at ht
    exact hne (eq_of_append_eq hs.noSlash hrest hw ht.symm)
  have hwhole : ∀ w : List UInt8, slash ∉ w → s ≠ w → slash :: (s ++ rest) ≠ slash :: w := by
    intro w hw hne h
    exact hne (eq_of_append_eq_nil hrest hw (List.cons.inj h).2)
  have hD : ¬ (slash :: (s ++ rest) = [dot] ∨ slash :: (s ++ rest) = [dot, dot]) := by
    rintro (h | h)
    · exact absurd (List.cons.inj h).1 (by decide)
    · exact absurd (List.cons.inj h).1 (by decide)
  have hdot : slash ∉ [dot] := by decide
  have hdots : slash ∉ [dot, dot] := by decide
  have hB : ¬ [slash, dot, slash] <+: slash :: (s ++ rest) := hprefix _ hdot hs.neDot
  have hC : ¬ [slash, dot, dot, slash] <+: slash :: (s ++ rest) := hprefix _ hdots hs.neDots
  rw [step, if_neg (hA _), if_neg (hA _), if_neg hB, if_neg (hwhole _ hdot hs.neDot), if_neg hC,
    if_neg (hwhole _ hdots hs.neDots), if_neg hD, firstSegment_append hs.noSlash hrest]

end Segment

/-! ## Whole paths -/

theorem ordinary_nil : Ordinary [] :=
  ⟨List.not_mem_nil, by simp, by simp⟩

/-- Ordinary segments go to the output one after the other. -/
theorem remove_ordinary (h : ∀ s ∈ segments, Ordinary s) {rest : List UInt8} (hrest : Boundary rest)
    (out : List UInt8) :
    remove out (join segments ++ rest) = remove (out ++ join segments) rest := by
  induction segments generalizing out with
  | nil => simp
  | cons s segments ih =>
    obtain ⟨hs, hsegments⟩ := List.forall_mem_cons.mp h
    have hnext : Boundary (join segments ++ rest) := by
      cases segments with
      | nil => exact hrest
      | cons s' segments => exact .inr ⟨_, rfl⟩
    rw [join_cons, List.append_assoc, List.cons_append, remove_step out (List.cons_ne_nil _ _),
      step_ordinary hs hnext, ih hsegments, List.append_assoc]

/-- What is left of a path behind a segment that disappears. -/
def behind (segments : List (List UInt8)) : List UInt8 :=
  if segments = [] then [slash] else join segments

/-- What is behind a segment is no longer than the path. -/
theorem length_behind (segments : List (List UInt8)) :
    (behind segments).length ≤ (join segments).length + 1 := by
  unfold behind
  split
  · exact Nat.le_add_left 1 _
  · exact Nat.le_succ _

/-- **Ordinary segments stay where they are.** -/
theorem remove_behind (h : ∀ s ∈ segments, Ordinary s) (out : List UInt8) :
    remove out (behind segments) = out ++ behind segments := by
  unfold behind
  split
  · rw [remove_step out (List.cons_ne_nil _ _)]
    have hstep := step_ordinary ordinary_nil (.inl rfl) out
    rw [List.append_nil] at hstep
    rw [hstep, remove_nil]
  · have hall := remove_ordinary h (.inl rfl) out
    rwa [List.append_nil, remove_nil] at hall

/-- A path of ordinary segments stays as it is. -/
theorem removeDotSegments_join (h : ∀ s ∈ segments, Ordinary s) :
    removeDotSegments (join segments) = join segments := by
  have hall := remove_ordinary h (.inl rfl) []
  rwa [List.append_nil, remove_nil, List.nil_append] at hall

/-- A dot goes, and what is behind it stays. -/
theorem remove_dot (out : List UInt8) :
    remove out (join ([dot] :: segments)) = remove out (behind segments) := by
  rw [remove_step out (join_ne_nil _ _)]
  cases segments with
  | nil => rfl
  | cons s segments =>
    have hstep : step out (join ([dot] :: s :: segments)) = (out, join (s :: segments)) := by
      rw [step, if_neg, if_neg, if_pos]
      · rfl
      · exact ⟨_, rfl⟩
      · exact fun h => absurd (List.cons_prefix_cons.mp h).1 (by decide)
      · exact fun h => absurd (List.cons_prefix_cons.mp h).1 (by decide)
    rw [hstep]
    rfl

/-- Two dots go and take the segment before them along. -/
theorem remove_dots (out : List UInt8) :
    remove out (join ([dot, dot] :: segments)) = remove (dropSegment out) (behind segments) := by
  rw [remove_step out (join_ne_nil _ _)]
  cases segments with
  | nil => rfl
  | cons s segments =>
    have hstep : step out (join ([dot, dot] :: s :: segments)) =
        (dropSegment out, join (s :: segments)) := by
      rw [step, if_neg, if_neg, if_neg, if_neg, if_pos]
      · rfl
      · exact ⟨_, rfl⟩
      · simp
      · intro h
        have hsecond := (List.cons_prefix_cons.mp (List.cons_prefix_cons.mp h).2).2
        exact absurd (List.cons_prefix_cons.mp hsecond).1 (by decide)
      · exact fun h => absurd (List.cons_prefix_cons.mp h).1 (by decide)
      · exact fun h => absurd (List.cons_prefix_cons.mp h).1 (by decide)
    rw [hstep]
    rfl

theorem dropSegment_append {s : List UInt8} (hs : slash ∉ s) (out : List UInt8) :
    dropSegment (out ++ slash :: s) = out := by
  have hdrop : (out ++ slash :: s).rdropWhile (fun b => b != slash) = out ++ [slash] := by
    have hkeep : ∀ b ∈ s.reverse, (b != slash) = true :=
      bne_of_notMem (fun h => hs (List.mem_reverse.mp h))
    rw [List.rdropWhile, List.reverse_append, List.reverse_cons, List.append_assoc,
      List.dropWhile_append_of_pos hkeep]
    simp
  rw [dropSegment, hdrop, List.dropLast_concat]

/-- A segment `.` disappears. -/
theorem removeDotSegments_dot {before after : List (List UInt8)}
    (hbefore : ∀ s ∈ before, Ordinary s) (hafter : ∀ s ∈ after, Ordinary s) :
    removeDotSegments (join (before ++ [dot] :: after)) = join before ++ behind after := by
  rw [removeDotSegments, join_append, remove_ordinary hbefore (boundary_join _), remove_dot,
    remove_behind hafter, List.nil_append]

/-- A segment `..` disappears with the one before it. -/
theorem removeDotSegments_dots {before after : List (List UInt8)} {s : List UInt8}
    (hbefore : ∀ s ∈ before, Ordinary s) (hs : Ordinary s) (hafter : ∀ s ∈ after, Ordinary s) :
    removeDotSegments (join (before ++ s :: [dot, dot] :: after)) = join before ++ behind after := by
  have hsplit : before ++ s :: [dot, dot] :: after = (before ++ [s]) ++ [dot, dot] :: after := by
    simp
  have hall : ∀ t ∈ before ++ [s], Ordinary t := by
    simpa using fun t ht => ht.elim (hbefore t) (fun h => h ▸ hs)
  rw [removeDotSegments, hsplit, join_append, remove_ordinary hall (boundary_join _), remove_dots,
    List.nil_append, join_append, join_cons, join_nil, List.append_nil,
    dropSegment_append hs.noSlash, remove_behind hafter]

/-! ## URLs -/

/-- The path of a URL with a scheme and an authority: what is between the authority
and the query or the fragment. -/
def ofURL (url : List UInt8) : List UInt8 :=
  -- `#`, `?` and `:`
  let hierarchy := (url.takeWhile (fun b => b != 0x23)).takeWhile (fun b => b != 0x3f)
  -- `://`
  (((hierarchy.dropWhile (fun b => b != 0x3a)).drop 3).dropWhile (fun b => b != slash))

/-- The path of a URL is what comes after its host. -/
theorem ofURL_append {scheme host path : List UInt8}
    (hscheme : ∀ b ∈ scheme, b ∉ [0x23, 0x3f, 0x3a]) (hhost : ∀ b ∈ host, b ∉ [0x23, 0x3f, slash])
    (hpath : ∀ b ∈ path, b ∉ [0x23, 0x3f]) (hslash : path.head? = some slash) :
    ofURL (scheme ++ 0x3a :: slash :: slash :: (host ++ path)) = path := by
  have hmarks : ∀ b ∈ scheme ++ 0x3a :: slash :: slash :: (host ++ path), b ∉ [0x23, 0x3f] := by
    simp only [List.forall_mem_append, List.forall_mem_cons]
    refine ⟨fun b hb => ?_, by decide, by decide, by decide, fun b hb => ?_, hpath⟩
    · exact fun h => hscheme b hb (by simp at h ⊢; tauto)
    · exact fun h => hhost b hb (by simp at h ⊢; tauto)
  have hwhole : ∀ mark : UInt8, mark ∈ [0x23, 0x3f] →
      (scheme ++ 0x3a :: slash :: slash :: (host ++ path)).takeWhile (fun b => b != mark) =
        scheme ++ 0x3a :: slash :: slash :: (host ++ path) := by
    intro mark hmark
    refine List.takeWhile_eq_self_iff.mpr (bne_of_notMem (fun h => ?_))
    exact hmarks mark h hmark
  have hcolon : (0x3a : UInt8) ∉ scheme := fun h => hscheme _ h (by simp)
  have hhostSlash : slash ∉ host := fun h => hhost _ h (by simp)
  obtain ⟨tail, rfl⟩ : ∃ tail, path = slash :: tail := by
    cases path with
    | nil => cases hslash
    | cons b tail =>
      cases hslash
      exact ⟨tail, rfl⟩
  rw [ofURL, hwhole 0x23 (by simp), hwhole 0x3f (by simp),
    List.dropWhile_append_of_pos (bne_of_notMem hcolon)]
  simp only [List.dropWhile_cons, bne_self_eq_false, Bool.false_eq_true, if_false, List.drop_succ_cons,
    List.drop_zero]
  rw [List.dropWhile_append_of_pos (bne_of_notMem hhostSlash)]
  simp

end Text.Path
