/-
What the logger keeps: `internal/platform/logger/sampling.go`.

Lines are counted per level and message, in windows that open with a line. The
first of a window are kept, and of the others every so many. The map is keyed by a
string, the name of the level and the message with a zero byte between them; the
name has no zero byte and differs from level to level, so the two are never mixed
up and the sampler is a `Keyed` machine with the pair as its key.

`count` is an `int` and is counted up for every line of a window, kept or not. It
is 64 bits wide here, and wraps around. Nobody writes 2⁶³ lines in a window, but
`sampled_exactly_iff` is about all runs, and says what the counter is exact for.
Times are nanoseconds.
-/
import ReleaseNotifier.Keyed
import ReleaseNotifier.Spans
import ReleaseNotifier.Logger

set_option autoImplicit false

namespace ReleaseNotifier.Logger

open Text

/-! ## The level's name

`Level.String` of package `log/slog`. A level is an `int`, and neither side of the
differences is far from it, so they do not wrap around. -/

/-- The verb `%+d`. -/
def plusD (val : Int) : String :=
  if val < 0 then "-" ++ Nat.repr val.natAbs else "+" ++ Nat.repr val.natAbs

/-- `str` in `Level.String`. -/
def levelStr (base : String) (val : Int) : String :=
  if val = 0 then base else base ++ plusD val

/-- `Level.String`. -/
def levelString (l : Int) : String :=
  if l < 0 then levelStr "DEBUG" (l - -4)
  else if l < 4 then levelStr "INFO" (l - 0)
  else if l < 8 then levelStr "WARN" (l - 4)
  else levelStr "ERROR" (l - 8)

/-! ## The sampler -/

/-- `sampleWindow`. -/
structure SampleWindow where
  resetAt : Int
  count : Int64
  deriving DecidableEq

/-- `sampler`, but for its map. -/
structure Sampler where
  first : Int64
  thereafter : Int64
  interval : Int64
  first_pos : 0 < first
  thereafter_pos : 0 < thereafter
  interval_pos : 0 < interval

theorem toInt_pos {x : Int64} (h : 0 < x) : 0 < x.toInt := by
  have hlt := Int64.lt_iff_toInt_lt.mp h
  rwa [Int64.toInt_zero] at hlt

/-- A value that is not positive is replaced. -/
def orDefault (val default : Int64) : Int64 := if val ≤ 0 then default else val

/-- A default is positive, so the sampler's settings are. -/
theorem orDefault_pos (val : Int64) {default : Int64} (h : 0 < default) :
    0 < orDefault val default := by
  unfold orDefault
  split
  · exact h
  · next hval => exact Int64.not_le.mp hval

/-- `defaultSampleFirst`. -/
def defaultSampleFirst : Int64 := 20

/-- `defaultSampleThereafter`. -/
def defaultSampleThereafter : Int64 := 50

/-- `defaultSampleInterval`: ten seconds. -/
def defaultSampleInterval : Int64 := 10 * 1000000000

/-- `newSampler`. -/
def newSampler (first thereafter interval : Int64) : Sampler where
  first := orDefault first defaultSampleFirst
  thereafter := orDefault thereafter defaultSampleThereafter
  interval := orDefault interval defaultSampleInterval
  first_pos := orDefault_pos first (by decide)
  thereafter_pos := orDefault_pos thereafter (by decide)
  interval_pos := orDefault_pos interval (by decide)

/-- The map `windows`. -/
abbrev Windows := Bytes → Option SampleWindow

/-- The key of a level and a message. -/
def sampleKey (level : Int) (msg : Bytes) : Bytes := utf8 (levelString level) ++ 0 :: msg

namespace Sampler

variable (s : Sampler)

/-- The window a line at `now` is counted in, before it is. -/
def window (entry : Option SampleWindow) (now : Int) : SampleWindow :=
  match entry with
  | none => ⟨now + s.interval.toInt, 0⟩
  | some w => if w.resetAt < now then ⟨now + s.interval.toInt, 0⟩ else w

/-- Whether the line that brings the count to this is kept. -/
def keeps (count : Int64) : Bool :=
  if count ≤ s.first then true else decide ((count - s.first) % s.thereafter = 0)

/-- What `allow` makes of an entry: whether the line is kept, and the new entry. -/
def visit (entry : Option SampleWindow) (now : Int) : Bool × SampleWindow :=
  let w := s.window entry now
  let w := { w with count := w.count + 1 }
  (s.keeps w.count, w)

/-- `allow` under the mutex, with the reading of the clock it was called with. -/
def allow (windows : Windows) (level : Int) (msg : Bytes) (now : Int) : Bool × Windows :=
  let key := sampleKey level msg
  let (kept, w) := s.visit (windows key) now
  (kept, Function.update windows key (some w))

end Sampler

/-- A call of `allow`, with the reading of the clock. -/
structure LogCall where
  level : Int
  msg : Bytes
  now : Int
  deriving DecidableEq

/-- The call is about this level and message. -/
def LogCall.isFor (level : Int) (msg : Bytes) (c : LogCall) : Bool :=
  decide (c.level = level ∧ c.msg = msg)

/-- The calls of a run, in the order in which they get the mutex, each with what it
returned. -/
def Sampler.decisions (s : Sampler) (windows : Windows) : List LogCall → List (LogCall × Bool)
  | [] => []
  | c :: cs =>
    (c, (s.allow windows c.level c.msg c.now).1) ::
      Sampler.decisions s (s.allow windows c.level c.msg c.now).2 cs

/-! ## Keys -/

theorem toList_plusD (val : Int) :
    (plusD val).toList = (if val < 0 then '-' else '+') :: Nat.toDigits 10 val.natAbs := by
  unfold plusD
  split
  · rw [String.toList_append, Nat.toList_repr]
    rfl
  · rw [String.toList_append, Nat.toList_repr]
    rfl

/-- Two levels with one base are told apart by what follows it. -/
theorem plusD_injective {val val' : Int} (h : plusD val = plusD val') : val = val' := by
  have hlist := congrArg String.toList h
  rw [toList_plusD, toList_plusD, List.cons.injEq] at hlist
  obtain ⟨hsign, hdigits⟩ := hlist
  have habs : val.natAbs = val'.natAbs := by
    rw [← Nat.ofDigitChars_ten_toDigits (n := val.natAbs), hdigits, Nat.ofDigitChars_ten_toDigits]
  by_cases hneg : val < 0
  · by_cases hneg' : val' < 0
    · omega
    · rw [if_pos hneg, if_neg hneg'] at hsign
      exact absurd hsign (by decide)
  · by_cases hneg' : val' < 0
    · rw [if_neg hneg, if_pos hneg'] at hsign
      exact absurd hsign (by decide)
    · omega

/-- What follows the base of a name. -/
theorem toList_levelStr (base : String) (val : Int) :
    (levelStr base val).toList = base.toList ++ if val = 0 then [] else (plusD val).toList := by
  unfold levelStr
  split
  · exact (List.append_nil _).symm
  · exact String.toList_append

/-- With one base the offset is told by the text. -/
theorem levelStr_injective {base : String} {val val' : Int}
    (h : levelStr base val = levelStr base val') : val = val' := by
  have hlist := congrArg String.toList h
  rw [toList_levelStr, toList_levelStr, List.append_cancel_left_eq] at hlist
  by_cases hzero : val = 0
  · by_cases hzero' : val' = 0
    · rw [hzero, hzero']
    · rw [if_pos hzero, if_neg hzero', toList_plusD] at hlist
      exact absurd hlist.symm (List.cons_ne_nil _ _)
  · by_cases hzero' : val' = 0
    · rw [if_neg hzero, if_pos hzero', toList_plusD] at hlist
      exact absurd hlist (List.cons_ne_nil _ _)
    · rw [if_neg hzero, if_neg hzero'] at hlist
      exact plusD_injective (String.toList_inj.mp hlist)

/-- The bases of the names, each with the level that has no number. -/
def levelBases : List (String × Int) := [("DEBUG", -4), ("INFO", 0), ("WARN", 4), ("ERROR", 8)]

/-- A level is printed as a base and an offset. -/
theorem levelString_eq (l : Int) :
    ∃ k ∈ levelBases, levelString l = levelStr k.1 (l - k.2) := by
  unfold levelString
  by_cases hdebug : l < 0
  · exact ⟨("DEBUG", -4), by decide, if_pos hdebug⟩
  · rw [if_neg hdebug]
    by_cases hinfo : l < 4
    · exact ⟨("INFO", 0), by decide, if_pos hinfo⟩
    · rw [if_neg hinfo]
      by_cases hwarn : l < 8
      · exact ⟨("WARN", 4), by decide, if_pos hwarn⟩
      · exact ⟨("ERROR", 8), by decide, if_neg hwarn⟩

/-- A name begins as its base does. -/
theorem head_levelStr {base : String} {c : Char} (h : base.toList.head? = some c) (val : Int) :
    (levelStr base val).toList.head? = some c := by
  rw [toList_levelStr, List.head?_append, h, Option.some_or]

/-- The base of a name is known by its first letter. -/
theorem levelString_injective {l l' : Int} (h : levelString l = levelString l') : l = l' := by
  have hhead : ∀ k ∈ levelBases, ∃ c, k.1.toList.head? = some c := by
    simp [levelBases]
  have hletters : ∀ k ∈ levelBases, ∀ k' ∈ levelBases,
      k.1.toList.head? = k'.1.toList.head? → k = k' := by
    decide
  obtain ⟨k, hk, hname⟩ := levelString_eq l
  obtain ⟨k', hk', hname'⟩ := levelString_eq l'
  obtain ⟨c, hc⟩ := hhead k hk
  obtain ⟨c', hc'⟩ := hhead k' hk'
  have hcc : c = c' := by
    rw [← Option.some.injEq, ← head_levelStr hc (l - k.2), ← head_levelStr hc' (l' - k'.2), ← hname,
      ← hname', h]
  obtain rfl := hletters k hk k' hk' (by rw [hc, hc', hcc])
  rw [hname, hname'] at h
  have hval := levelStr_injective h
  omega

theorem zero_notMem_plusD (val : Int) : Char.ofNat 0 ∉ (plusD val).toList := by
  intro hmem
  rw [toList_plusD, List.mem_cons] at hmem
  rcases hmem with hsign | hdigit
  · split at hsign
    · exact absurd hsign (by decide)
    · exact absurd hsign (by decide)
  · exact absurd (Nat.isDigit_of_mem_toDigits (by decide) (by decide) hdigit) (by decide)

/-- No NUL in a level, so the key separates level and message. -/
theorem zero_notMem_levelStr {base : String} (hbase : Char.ofNat 0 ∉ base.toList) (val : Int) :
    Char.ofNat 0 ∉ (levelStr base val).toList := by
  intro hmem
  rw [toList_levelStr, List.mem_append] at hmem
  rcases hmem with hmem | hmem
  · exact hbase hmem
  · split at hmem
    · exact absurd hmem List.not_mem_nil
    · exact zero_notMem_plusD val hmem

/-- Bases, signs and digits: no name has a zero in it. -/
theorem zero_notMem_levelString (l : Int) : (0 : UInt8) ∉ utf8 (levelString l) := by
  have hascii : (0 : UInt8).toNat < 0x80 := by decide
  rw [utf8_eq_encode, mem_encode_ascii hascii]
  have hbases : ∀ k ∈ levelBases, Char.ofNat 0 ∉ k.1.toList := by decide
  obtain ⟨k, hk, h⟩ := levelString_eq l
  rw [h]
  exact zero_notMem_levelStr (hbases k hk) _

/-- A key is read back at its first zero, whatever the message. -/
theorem sampleKey_inj {l l' : Int} {msg msg' : Bytes} :
    sampleKey l msg = sampleKey l' msg' ↔ l = l' ∧ msg = msg' := by
  constructor
  · intro h
    have hcut := Strings.cut_append (zero_notMem_levelString l) msg
    have hcut' := Strings.cut_append (zero_notMem_levelString l') msg'
    rw [← sampleKey] at hcut hcut'
    rw [h, hcut', Option.some.injEq, Prod.mk.injEq] at hcut
    obtain ⟨hname, hmsg⟩ := hcut
    rw [utf8_eq_encode, utf8_eq_encode] at hname
    have hrunes := congrArg runes hname
    rw [runes_encode, runes_encode] at hrunes
    exact ⟨(levelString_injective (String.toList_inj.mp hrunes)).symm, hmsg.symm⟩
  · rintro ⟨rfl, rfl⟩
    rfl

/-! ## One machine for each level and message -/

namespace Sampler

variable (s : Sampler)

/-- The sampler as a machine of its windows. -/
def keyed : Keyed Bytes LogCall SampleWindow Bool where
  key c := sampleKey c.level c.msg
  step entry c := s.visit entry c.now

/-- The sampler as a keyed counter. -/
theorem decisions_eq (windows : Windows) (calls : List LogCall) :
    s.decisions windows calls = s.keyed.answers windows calls := by
  induction calls generalizing windows with
  | nil => rfl
  | cons c calls ih =>
    rw [decisions, ih]
    rfl

/-- The calls for a level and a message are those with its key. -/
theorem isFor_eq (level : Int) (msg : Bytes) :
    LogCall.isFor level msg = fun c => decide (s.keyed.key c = sampleKey level msg) :=
  funext (fun _ => decide_eq_decide.mpr sampleKey_inj.symm)

/-- What is decided about a level and a message is decided as if there were no others. -/
theorem decisions_filter (level : Int) (msg : Bytes) (windows : Windows) (calls : List LogCall) :
    (s.decisions windows calls).filter (fun x => x.1.isFor level msg) =
      s.decisions windows (calls.filter (LogCall.isFor level msg)) := by
  rw [decisions_eq, decisions_eq, s.isFor_eq]
  exact (s.keyed.filter_answers (sampleKey level msg) windows calls).symm

/-- It is decided by the entry alone. -/
theorem decisions_alone (level : Int) (msg : Bytes) (windows : Windows) (calls : List LogCall) :
    (s.decisions windows calls).filter (fun x => x.1.isFor level msg) =
      s.keyed.alone (windows (sampleKey level msg)) (calls.filter (LogCall.isFor level msg)) := by
  rw [decisions_eq, s.isFor_eq]
  exact s.keyed.answers_filter (sampleKey level msg) windows calls

/-! ## The lines of one window -/

/-- When a decision was made. -/
def madeAt (x : LogCall × Bool) : Int := x.1.now

@[simp] theorem madeAt_mk (c : LogCall) (kept : Bool) : madeAt (c, kept) = c.now := rfl

/-- When a window that opens at `t` ends. -/
def lastOf (t : Int) : Int := t + s.interval.toInt

/-- The windows of a level and a message: one opens with the first line that is in no
window, and it holds the lines up to its reset. -/
def windowsOf (mine : List (LogCall × Bool)) : List (List (LogCall × Bool)) :=
  Spans.spans madeAt s.lastOf mine

/-- The decisions of a window are those of the counts from one on. -/
def Counted (w : List (LogCall × Bool)) : Prop :=
  w.map Prod.snd = (List.range w.length).map (fun i => s.keeps (Int64.ofNat (i + 1)))

theorem interval_toInt_pos : 0 < s.interval.toInt := toInt_pos s.interval_pos

/-- A line in the window is counted there. -/
theorem visit_inside {w : SampleWindow} {now : Int} (h : now ≤ w.resetAt) :
    s.visit (some w) now = (s.keeps (w.count + 1), ⟨w.resetAt, w.count + 1⟩) := by
  rw [visit, window, if_neg (Int.not_lt.mpr h)]

/-- Any other line opens one. -/
theorem visit_opens {entry : Option SampleWindow} {now : Int}
    (h : ∀ w, entry = some w → w.resetAt < now) :
    s.visit entry now = (s.keeps (Int64.ofNat 1), ⟨s.lastOf now, Int64.ofNat 1⟩) := by
  have hone : (0 : Int64) + 1 = Int64.ofNat 1 := rfl
  cases entry with
  | none =>
    rw [visit, window, ← hone]
    rfl
  | some w =>
    rw [visit, window, if_pos (h w rfl), ← hone]
    rfl

/-- The first call of a window is its first. -/
theorem Counted.opened (c : LogCall) : s.Counted [(c, s.keeps (Int64.ofNat 1))] := rfl

/-- The next call of a window is decided by its number in it. -/
theorem Counted.append {s : Sampler} {w : List (LogCall × Bool)} (h : s.Counted w) (c : LogCall) :
    s.Counted (w ++ [(c, s.keeps (Int64.ofNat w.length + 1))]) := by
  have hnext : Int64.ofNat w.length + 1 = Int64.ofNat (w.length + 1) :=
    (Int64.ofNat_add w.length 1).symm
  unfold Counted at h ⊢
  rw [List.map_append, h, List.length_append, List.length_singleton, List.range_succ,
    List.map_append, hnext]
  rfl

/-- Reading on in a window that holds `acc`, whose count is in the entry. -/
theorem counted_spansFrom {x : LogCall × Bool} {acc : List (LogCall × Bool)} (hacc : s.Counted acc)
    (calls : List LogCall) :
    ∀ w ∈ Spans.spansFrom madeAt s.lastOf x acc
        (s.keyed.alone (some ⟨s.lastOf (madeAt x), Int64.ofNat acc.length⟩) calls),
      s.Counted w := by
  induction calls generalizing x acc with
  | nil =>
    intro w hw
    rw [Keyed.alone, Spans.spansFrom, List.mem_singleton] at hw
    rw [hw]
    exact hacc
  | cons c calls ih =>
    rw [Keyed.alone, Spans.spansFrom]
    by_cases hin : c.now ≤ s.lastOf (madeAt x)
    · -- the line is in the window, and the entry counts it
      have hstep : s.keyed.step (some ⟨s.lastOf (madeAt x), Int64.ofNat acc.length⟩) c =
          (s.keeps (Int64.ofNat acc.length + 1),
            ⟨s.lastOf (madeAt x), Int64.ofNat acc.length + 1⟩) := s.visit_inside hin
      have hnext := ih (hacc.append c) (x := x)
      rw [List.length_append, List.length_singleton, Int64.ofNat_add] at hnext
      rw [hstep, madeAt_mk, if_pos hin]
      exact hnext
    · -- it opens the next one
      have hstep : s.keyed.step (some ⟨s.lastOf (madeAt x), Int64.ofNat acc.length⟩) c =
          (s.keeps (Int64.ofNat 1), ⟨s.lastOf c.now, Int64.ofNat 1⟩) := by
        refine s.visit_opens (fun w hw => ?_)
        rw [← Option.some.inj hw]
        exact Int.not_le.mp hin
      rw [hstep, madeAt_mk, if_neg hin]
      intro w hw
      rcases List.mem_cons.mp hw with rfl | hw
      · exact hacc
      · exact ih (Counted.opened s c) (x := (c, s.keeps (Int64.ofNat 1))) w hw

/-- Every window of a run counts from one. -/
theorem counted_windowsOf (calls : List LogCall) :
    ∀ w ∈ s.windowsOf (s.keyed.alone none calls), s.Counted w := by
  cases calls with
  | nil =>
    intro w hw
    exact absurd hw List.not_mem_nil
  | cons c calls =>
    have hstep : s.keyed.step none c = (s.keeps (Int64.ofNat 1), ⟨s.lastOf c.now, Int64.ofNat 1⟩) :=
      s.visit_opens (fun w hw => by cases hw)
    rw [Keyed.alone, hstep]
    exact s.counted_spansFrom (Counted.opened s c) (x := (c, s.keeps (Int64.ofNat 1))) calls

/-! ## How many are kept -/

/-- How many of the first `n` lines of a window are kept. -/
def kept (n : Nat) : Nat := (List.range n).countP (fun i => s.keeps (Int64.ofNat (i + 1)))

/-- One more call, and whether it is kept. -/
theorem kept_succ (n : Nat) :
    s.kept (n + 1) = s.kept n + if s.keeps (Int64.ofNat (n + 1)) then 1 else 0 := by
  rw [kept, List.range_succ, List.countP_append, List.countP_singleton]
  rfl

/-- How many of the first `n` calls of a window are kept. -/
theorem Counted.countP_take {s : Sampler} {w : List (LogCall × Bool)} (h : s.Counted w) {n : Nat}
    (hn : n ≤ w.length) : (w.take n).countP Prod.snd = s.kept n := by
  have hmap : (w.take n).map Prod.snd =
      (List.range n).map (fun i => s.keeps (Int64.ofNat (i + 1))) := by
    rw [List.map_take, h, ← List.map_take, List.take_range, Nat.min_eq_left hn]
  have hcount := congrArg (List.countP id) hmap
  rwa [List.countP_map, List.countP_map] at hcount

/-- `first` and `thereafter` as numbers. -/
def firstN : Nat := s.first.toInt.toNat

@[inherit_doc firstN]
def thereafterN : Nat := s.thereafter.toInt.toNat

/-- How many are meant to be kept: the first ones, and of the rest every so many. The
difference of natural numbers is zero where it would be negative. -/
def quota (n : Nat) : Nat := min n s.firstN + (n - s.firstN) / s.thereafterN

theorem firstN_cast : (s.firstN : Int) = s.first.toInt :=
  Int.toNat_of_nonneg (Int.le_of_lt (toInt_pos s.first_pos))

theorem thereafterN_cast : (s.thereafterN : Int) = s.thereafter.toInt :=
  Int.toNat_of_nonneg (Int.le_of_lt (toInt_pos s.thereafter_pos))

theorem firstN_lt : s.firstN < 2 ^ 63 := by
  have h := s.first.toInt_lt
  rw [← firstN_cast] at h
  omega

/-- The quota grows with the lines that are meant to be kept. -/
theorem quota_succ (n : Nat) :
    s.quota (n + 1) = s.quota n +
      if n + 1 ≤ s.firstN ∨ s.thereafterN ∣ n + 1 - s.firstN then 1 else 0 := by
  unfold quota
  by_cases hfirst : n + 1 ≤ s.firstN
  · rw [if_pos (.inl hfirst), Nat.min_eq_left hfirst, Nat.min_eq_left (by omega),
      Nat.sub_eq_zero_of_le hfirst, Nat.sub_eq_zero_of_le (by omega)]
    omega
  · have hdiff : n + 1 - s.firstN = n - s.firstN + 1 := by omega
    rw [Nat.min_eq_right (by omega), Nat.min_eq_right (by omega), hdiff, Nat.succ_div]
    simp only [hfirst, false_or, Nat.add_assoc]

/-- While the count has not wrapped around, the code keeps what is meant to be kept. -/
theorem keeps_ofNat {k : Nat} (hk : k < 2 ^ 63) :
    s.keeps (Int64.ofNat k) = decide (k ≤ s.firstN ∨ s.thereafterN ∣ k - s.firstN) := by
  have hto : (Int64.ofNat k).toInt = (k : Int) := Int64.toInt_ofNat_of_lt hk
  have hle : Int64.ofNat k ≤ s.first ↔ k ≤ s.firstN := by
    rw [Int64.le_iff_toInt_le, hto, ← firstN_cast, Int.ofNat_le]
  unfold keeps
  by_cases hfirst : k ≤ s.firstN
  · rw [if_pos (hle.mpr hfirst), decide_eq_true (.inl hfirst)]
  · rw [if_neg (mt hle.mp hfirst)]
    have hsub : (Int64.ofNat k - s.first).toInt = ((k - s.firstN : Nat) : Int) := by
      rw [Int64.toInt_sub_of_le, hto, ← firstN_cast, Int.ofNat_sub (by omega)]
      · exact Int64.le_of_lt s.first_pos
      · rw [Int64.le_iff_toInt_le, hto, ← firstN_cast]
        omega
    have hmod : (Int64.ofNat k - s.first) % s.thereafter = 0 ↔ s.thereafterN ∣ k - s.firstN := by
      rw [← Int64.toInt_inj, Int64.toInt_mod, hsub, ← thereafterN_cast, Int64.toInt_zero,
        ← Int.dvd_iff_tmod_eq_zero, Int.natCast_dvd_natCast]
    exact decide_eq_decide.mpr (hmod.trans (by simp [hfirst]))

/-- The counter is exact until it wraps around. -/
theorem kept_eq_quota {n : Nat} (hn : n < 2 ^ 63) : s.kept n = s.quota n := by
  induction n with
  | zero =>
    rw [quota, Nat.zero_min, Nat.zero_sub, Nat.zero_div]
    rfl
  | succ n ih =>
    rw [kept_succ, quota_succ, ih (by omega), s.keeps_ofNat hn]
    simp only [decide_eq_true_eq]

/-- After it has wrapped around, the count is negative and everything is kept. -/
theorem keeps_wrapped {k : Nat} (hlow : 2 ^ 63 ≤ k) (hhigh : k < 2 ^ 64) :
    s.keeps (Int64.ofNat k) = true := by
  have hto : (Int64.ofNat k).toInt < 0 := by
    have hsize : Int64.size = 2 ^ 64 := rfl
    rw [Int64.toInt_ofNat', hsize, Int.bmod_def]
    omega
  have hle : Int64.ofNat k ≤ s.first := by
    rw [Int64.le_iff_toInt_le, ← firstN_cast]
    omega
  rw [keeps, if_pos hle]

/-- If every line is meant to be kept, it is, whatever the count. -/
theorem keeps_of_one (h : s.thereafterN = 1) (count : Int64) : s.keeps count = true := by
  have hmod : (count - s.first) % s.thereafter = 0 := by
    rw [← Int64.toInt_inj, Int64.toInt_mod, ← thereafterN_cast, h]
    exact Int.tmod_one _
  unfold keeps
  split
  · rfl
  · exact decide_eq_true hmod

/-- With `thereafter = 1` everything is kept. -/
theorem kept_eq_quota_of_one (h : s.thereafterN = 1) (n : Nat) : s.kept n = s.quota n := by
  have hkept : s.kept n = n := by
    rw [kept, List.countP_eq_length.mpr (fun i _ => s.keeps_of_one h _), List.length_range]
  rw [hkept, quota, h, Nat.div_one]
  omega

/-- A line that is kept while the count is exact was meant to be kept. -/
theorem meant_of_kept {n : Nat} (hn : s.kept n = s.quota n)
    (hsucc : s.kept (n + 1) = s.quota (n + 1)) (hkeeps : s.keeps (Int64.ofNat (n + 1)) = true) :
    n + 1 ≤ s.firstN ∨ s.thereafterN ∣ n + 1 - s.firstN := by
  by_contra hmeant
  rw [kept_succ, quota_succ, if_pos hkeeps, if_neg hmeant, hn] at hsucc
  omega

/-- The counter is exact in a window of `k` lines if it does not wrap around there, or
wraps around where that makes no difference. -/
theorem kept_eq_quota_iff (k : Nat) :
    (∀ n ≤ k, s.kept n = s.quota n) ↔
      k < 2 ^ 63 ∨ s.thereafterN = 1 ∨ (k = 2 ^ 63 ∧ s.thereafterN ∣ 2 ^ 63 - s.firstN) := by
  have hfirst := s.firstN_lt
  constructor
  · intro h
    by_cases hk : k < 2 ^ 63
    · exact .inl hk
    · -- the line that makes the count wrap around is kept
      have hat := s.meant_of_kept (n := 2 ^ 63 - 1) (h _ (by omega)) (h _ (by omega))
        (s.keeps_wrapped (by omega) (by omega))
      have hdvd : s.thereafterN ∣ 2 ^ 63 - s.firstN := hat.resolve_left (by omega)
      by_cases heq : k = 2 ^ 63
      · exact .inr (.inr ⟨heq, hdvd⟩)
      · -- and so is the next, so two neighbours are multiples
        have hafter := s.meant_of_kept (n := 2 ^ 63) (h _ (by omega)) (h _ (by omega))
          (s.keeps_wrapped (by omega) (by omega))
        have hdvd' : s.thereafterN ∣ 2 ^ 63 - s.firstN + 1 := by
          have hnext := hafter.resolve_left (by omega)
          rwa [Nat.sub_add_comm (Nat.le_of_lt hfirst)] at hnext
        exact .inr (.inl (Nat.dvd_one.mp ((Nat.dvd_add_right hdvd).mp hdvd')))
  · rintro (hk | hone | ⟨rfl, hdvd⟩) n hn
    · exact s.kept_eq_quota (by omega)
    · exact s.kept_eq_quota_of_one hone n
    · by_cases hlt : n < 2 ^ 63
      · exact s.kept_eq_quota hlt
      · obtain rfl : n = 2 ^ 63 - 1 + 1 := by omega
        have hmeant : 2 ^ 63 - 1 + 1 ≤ s.firstN ∨ s.thereafterN ∣ 2 ^ 63 - 1 + 1 - s.firstN :=
          .inr hdvd
        rw [kept_succ, quota_succ, s.kept_eq_quota (by omega), if_pos hmeant,
          if_pos (s.keeps_wrapped (by omega) (by omega))]

end Sampler

/-! ## What a run keeps -/

section Mine

variable (s : Sampler) (level : Int) (msg : Bytes)

/-- The decisions of a run about a level and a message. -/
def Sampler.decisionsFor (calls : List LogCall) : List (LogCall × Bool) :=
  (s.decisions (fun _ => none) calls).filter (fun x => x.1.isFor level msg)

theorem Sampler.map_fst_decisionsFor (calls : List LogCall) :
    (s.decisionsFor level msg calls).map Prod.fst = calls.filter (LogCall.isFor level msg) := by
  rw [decisionsFor, decisions_filter, decisions_eq]
  exact s.keyed.map_fst_answers _ _

theorem Sampler.pairwise_decisionsFor {calls : List LogCall}
    (hclock : calls.Pairwise (fun c c' => c.now ≤ c'.now)) :
    (s.decisionsFor level msg calls).Pairwise (fun x y => madeAt x ≤ madeAt y) := by
  have hmap : ((s.decisionsFor level msg calls).map Prod.fst).Pairwise
      (fun c c' => c.now ≤ c'.now) := by
    rw [map_fst_decisionsFor]
    exact hclock.filter _
  rw [List.pairwise_map] at hmap
  exact hmap

/-- Every window of a run is counted from one. -/
theorem Sampler.counted_of_mem {calls : List LogCall} {w : List (LogCall × Bool)}
    (hw : w ∈ s.windowsOf (s.decisionsFor level msg calls)) : s.Counted w := by
  rw [decisionsFor, decisions_alone] at hw
  exact s.counted_windowsOf _ w hw

end Mine

/-- What a sampler decides about a level and a message, in every run with a clock that does
not go back: it decides as if nothing else were logged; its windows are made up of all
the lines, each of the lines from its first one to its reset; and in a window exactly
the quota of the first `n` lines is kept, for every `n`, if and only if the window has
fewer than 2⁶³ lines, or every line is to be kept anyway, or the window ends with the line
that makes the count wrap around and that one is to be kept. -/
theorem sampled_exactly_iff (first thereafter interval : Int64) (calls : List LogCall)
    (hclock : calls.Pairwise (fun c c' => c.now ≤ c'.now)) (level : Int) (msg : Bytes) :
    let s := newSampler first thereafter interval
    let mine := s.decisionsFor level msg calls
    mine = s.decisions (fun _ => none) (calls.filter (LogCall.isFor level msg)) ∧
      (s.windowsOf mine).flatten = mine ∧
      ∀ w ∈ s.windowsOf mine,
        (∃ x ∈ mine, w = mine.filter (Spans.within Sampler.madeAt s.lastOf x)) ∧
          ((∀ n ≤ w.length, (w.take n).countP Prod.snd = s.quota n) ↔
            w.length < 2 ^ 63 ∨ s.thereafterN = 1 ∨
              (w.length = 2 ^ 63 ∧ s.thereafterN ∣ 2 ^ 63 - s.firstN)) := by
  intro s mine
  refine ⟨s.decisions_filter level msg _ calls, Spans.flatten_spans _ _ mine, fun w hw => ⟨?_, ?_⟩⟩
  · have hlast : ∀ t, t ≤ s.lastOf t := by
      intro t
      have hpos := s.interval_toInt_pos
      unfold Sampler.lastOf
      omega
    exact Spans.spans_filter hlast (s.pairwise_decisionsFor level msg hclock) w hw
  · have hcounted := s.counted_of_mem level msg hw
    rw [← s.kept_eq_quota_iff]
    exact forall_congr' (fun n => forall_congr' (fun hn => by rw [hcounted.countP_take hn]))

/-- Eight lines of one kind among others; the last is in a second window. -/
def sampleCalls : List LogCall :=
  [⟨0, utf8 "a", 0⟩, ⟨0, utf8 "a", 0⟩, ⟨4, utf8 "a", 0⟩, ⟨0, utf8 "a", 1⟩, ⟨0, utf8 "b", 1⟩,
    ⟨0, utf8 "a", 2⟩, ⟨0, utf8 "a", 2⟩, ⟨0, utf8 "a", 3⟩, ⟨0, utf8 "a", 10⟩, ⟨0, utf8 "a", 11⟩]

/-- Of the seven lines of the first window three are kept. -/
theorem sampled_exactly_iff_seven :
    ∃ w ∈ (newSampler 2 3 10).windowsOf ((newSampler 2 3 10).decisionsFor 0 (utf8 "a") sampleCalls),
      w.length = 7 ∧ (w.take 7).countP Prod.snd = 3 := by
  have hmem : ((newSampler 2 3 10).decisionsFor 0 (utf8 "a") sampleCalls).take 7 ∈
      (newSampler 2 3 10).windowsOf
        ((newSampler 2 3 10).decisionsFor 0 (utf8 "a") sampleCalls) := by
    decide +kernel
  have hlength : (((newSampler 2 3 10).decisionsFor 0 (utf8 "a") sampleCalls).take 7).length = 7 := by
    decide +kernel
  have hquota : (newSampler 2 3 10).quota 7 = 3 := by decide
  obtain ⟨-, -, hwindows⟩ :=
    sampled_exactly_iff 2 3 10 sampleCalls (by decide) 0 (utf8 "a")
  refine ⟨_, hmem, hlength, ?_⟩
  rw [← hquota]
  refine (hwindows _ hmem).2.mpr (.inl ?_) 7 (Nat.le_of_eq hlength.symm)
  rw [hlength]
  decide

/-! ## A flood -/

section Flood

variable (s : Sampler) (c : LogCall) (k : Nat)

/-- Each call of a flood is decided. -/
theorem Sampler.length_flood :
    (s.decisionsFor c.level c.msg (List.replicate k c)).length = k := by
  have hfor : c.isFor c.level c.msg = true := decide_eq_true ⟨rfl, rfl⟩
  have hmap := congrArg List.length (s.map_fst_decisionsFor c.level c.msg (List.replicate k c))
  rwa [List.length_map, List.filter_replicate_of_pos hfor, List.length_replicate] at hmap

/-- Lines at one time are in one window. -/
theorem Sampler.flood_mem_windowsOf (hk : 0 < k) :
    s.decisionsFor c.level c.msg (List.replicate k c) ∈
      s.windowsOf (s.decisionsFor c.level c.msg (List.replicate k c)) := by
  have hnow : ∀ x ∈ s.decisionsFor c.level c.msg (List.replicate k c), madeAt x = c.now := by
    intro x hx
    have hmem := List.mem_map_of_mem (f := Prod.fst) hx
    rw [map_fst_decisionsFor] at hmem
    rw [madeAt, List.eq_of_mem_replicate (List.mem_filter.mp hmem).1]
  have hlength := s.length_flood c k
  generalize s.decisionsFor c.level c.msg (List.replicate k c) = mine at hnow hlength
  cases mine with
  | nil =>
    rw [List.length_nil] at hlength
    omega
  | cons x mine =>
    have hin : ∀ y ∈ mine, madeAt y ≤ s.lastOf (madeAt x) := by
      intro y hy
      have hpos := s.interval_toInt_pos
      rw [hnow x List.mem_cons_self, hnow y (List.mem_cons_of_mem _ hy), lastOf]
      omega
    rw [windowsOf, Spans.spans, Spans.spansFrom_of_le _ _ hin]
    exact List.mem_singleton_self _

end Flood

/-- With the first line and then every second to be kept, 2⁶³ lines at one time are one
window, and of them one more is kept than is meant to be: the last, which makes the count
wrap around. -/
theorem sampled_wraps :
    let s := newSampler 1 2 3600000000000
    let calls := List.replicate (2 ^ 63) (⟨0, utf8 "retry", 0⟩ : LogCall)
    let mine := s.decisionsFor 0 (utf8 "retry") calls
    calls.Pairwise (fun c c' => c.now ≤ c'.now) ∧ mine ∈ s.windowsOf mine ∧
      2 ^ 63 ≤ mine.length ∧ (mine.take (2 ^ 63)).countP Prod.snd = 2 ^ 62 + 1 ∧
      s.quota (2 ^ 63) = 2 ^ 62 := by
  intro s calls mine
  have hwindow : mine ∈ s.windowsOf mine :=
    s.flood_mem_windowsOf ⟨0, utf8 "retry", 0⟩ (2 ^ 63) (by decide)
  have hlength : mine.length = 2 ^ 63 := s.length_flood ⟨0, utf8 "retry", 0⟩ (2 ^ 63)
  have hfirst : s.firstN = 1 := by decide
  have hthereafter : s.thereafterN = 2 := by decide
  have hkept : s.kept (2 ^ 63 - 1 + 1) = 2 ^ 62 + 1 := by
    rw [Sampler.kept_succ, s.kept_eq_quota (by decide), Sampler.quota, hfirst, hthereafter,
      if_pos (s.keeps_wrapped (by decide) (by decide))]
    decide
  refine ⟨?_, hwindow, Nat.le_of_eq hlength.symm, ?_, ?_⟩
  · exact List.pairwise_replicate.mpr (.inr le_rfl)
  · rw [(s.counted_of_mem 0 (utf8 "retry") hwindow).countP_take (Nat.le_of_eq hlength.symm)]
    exact hkept
  · rw [Sampler.quota, hfirst, hthereafter]
    decide

end ReleaseNotifier.Logger
