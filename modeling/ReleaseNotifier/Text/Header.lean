/-
Messages with a header: lines that end in CRLF, an empty line, and a body.

A reader takes everything before the first CRLF CRLF for the header and cuts that
into lines (`cutAt`, `linesOf`). If the lines a message was put together from are
not empty and contain no CR, the reader gets exactly these lines and the body back
(`cutAt_message`, `linesOf_intercalate`), whatever the body is.
-/
import ReleaseNotifier.Text.Strings

set_option autoImplicit false

namespace Text.Header

def cr : UInt8 := 0x0d

def lf : UInt8 := 0x0a

def crlf : List UInt8 := [cr, lf]

/-- `strings.Cut`: what is before and after the first occurrence of a separator. -/
def cutAt (sep : List UInt8) : List UInt8 → Option (List UInt8 × List UInt8)
  | [] => if sep = [] then some ([], []) else none
  | b :: s =>
    if sep <+: b :: s then some ([], (b :: s).drop sep.length)
    else (cutAt sep s).map (fun x => (b :: x.1, x.2))

/-- The lines of a text, cut at every CRLF. -/
def linesOf : List UInt8 → List (List UInt8)
  | [] => [[]]
  | [b] => [[b]]
  | b :: c :: s =>
    if b = cr ∧ c = lf then [] :: linesOf s
    else (linesOf (c :: s)).modifyHead (fun l => b :: l)

/-- A text that ends no line. -/
def NoBreak (s : List UInt8) : Prop := ∀ b ∈ s, b ≠ cr ∧ b ≠ lf

instance (s : List UInt8) : Decidable (NoBreak s) := inferInstanceAs (Decidable (∀ b ∈ s, _))

theorem NoBreak.cr_not_mem {s : List UInt8} (h : NoBreak s) : cr ∉ s := fun hmem => (h cr hmem).1 rfl

/-- Lines without a break can be put together. -/
theorem NoBreak.append {s t : List UInt8} (hs : NoBreak s) (ht : NoBreak t) : NoBreak (s ++ t) :=
  List.forall_mem_append.mpr ⟨hs, ht⟩

/-! ## Cutting -/

/-- The first separator is where the text is cut. -/
theorem cutAt_self {sep : List UInt8} (h : sep ≠ []) (s : List UInt8) :
    cutAt sep (sep ++ s) = some ([], s) := by
  obtain ⟨b, t, rfl⟩ := List.exists_cons_of_ne_nil h
  have hprefix : b :: t <+: b :: (t ++ s) := ⟨s, rfl⟩
  rw [List.cons_append, cutAt, if_pos hprefix]
  simp

/-- A byte that does not begin the separator is passed. -/
theorem cutAt_cons_of_ne {c b : UInt8} (h : b ≠ c) (sep s : List UInt8) :
    cutAt (c :: sep) (b :: s) = (cutAt (c :: sep) s).map (fun x => (b :: x.1, x.2)) := by
  rw [cutAt, if_neg]
  exact fun hprefix => h (List.cons_prefix_cons.mp hprefix).1.symm

/-- Bytes that begin no separator go to the first part. -/
theorem cutAt_append {c : UInt8} {l : List UInt8} (h : c ∉ l) (sep s : List UInt8) :
    cutAt (c :: sep) (l ++ s) = (cutAt (c :: sep) s).map (fun x => (l ++ x.1, x.2)) := by
  induction l with
  | nil => simp
  | cons b l ih =>
    obtain ⟨hne, hl⟩ := not_or.mp (mt List.mem_cons.mpr h)
    rw [List.cons_append, cutAt_cons_of_ne (Ne.symm hne), ih hl, Option.map_map]
    rfl

/-- One CRLF is not two. -/
theorem cutAt_crlf {b : UInt8} (h : b ≠ cr) (s : List UInt8) :
    cutAt (crlf ++ crlf) (crlf ++ b :: s) =
      (cutAt (crlf ++ crlf) (b :: s)).map (fun x => (crlf ++ x.1, x.2)) := by
  have hprefix : ¬ crlf ++ crlf <+: cr :: lf :: b :: s := by
    intro hp
    have hthird := (List.cons_prefix_cons.mp (List.cons_prefix_cons.mp hp).2).2
    exact h (List.cons_prefix_cons.mp hthird).1.symm
  have hsecond : cutAt (crlf ++ crlf) (lf :: b :: s) =
      (cutAt (crlf ++ crlf) (b :: s)).map (fun x => (lf :: x.1, x.2)) :=
    cutAt_cons_of_ne (by decide) _ _
  show cutAt (crlf ++ crlf) (cr :: lf :: b :: s) = _
  rw [cutAt, if_neg hprefix, hsecond, Option.map_map]
  rfl

theorem intercalate_cons_head (b : UInt8) (l : List UInt8) (rest : List (List UInt8)) :
    crlf.intercalate ((b :: l) :: rest) = b :: crlf.intercalate (l :: rest) := by
  cases rest with
  | nil => rw [List.intercalate_singleton, List.intercalate_singleton]
  | cons next rest => rw [List.intercalate_cons_cons, List.intercalate_cons_cons]; rfl

/-- The first empty line is the one after the header. -/
theorem cutAt_message {first : List UInt8} {rest : List (List UInt8)}
    (h : ∀ l ∈ first :: rest, l ≠ [] ∧ cr ∉ l) (body : List UInt8) :
    cutAt (crlf ++ crlf) (crlf.intercalate (first :: rest) ++ (crlf ++ crlf ++ body)) =
      some (crlf.intercalate (first :: rest), body) := by
  have hskip : ∀ l s : List UInt8, cr ∉ l → cutAt (crlf ++ crlf) (l ++ s) =
      (cutAt (crlf ++ crlf) s).map (fun x => (l ++ x.1, x.2)) :=
    fun l s hl => cutAt_append hl _ s
  induction rest generalizing first with
  | nil =>
    have hfirst := h first List.mem_cons_self
    rw [List.intercalate_singleton, hskip _ _ hfirst.2, cutAt_self (by decide)]
    simp
  | cons next rest ih =>
    -- the next line is not empty, so the break before it is a single one
    obtain ⟨hfirst, hrest⟩ := List.forall_mem_cons.mp h
    have hnext := hrest next List.mem_cons_self
    have hcut := ih hrest
    obtain ⟨b, l, rfl⟩ := List.exists_cons_of_ne_nil hnext.1
    have hb : b ≠ cr := fun heq => hnext.2 (heq ▸ List.mem_cons_self)
    rw [intercalate_cons_head, List.cons_append] at hcut
    rw [List.intercalate_cons_cons, List.append_assoc, List.append_assoc, hskip _ _ hfirst.2,
      intercalate_cons_head, List.cons_append, cutAt_crlf hb, hcut]
    simp

/-! ## Lines -/

theorem linesOf_cons_of_ne {b : UInt8} (h : b ≠ cr) (s : List UInt8) :
    linesOf (b :: s) = (linesOf s).modifyHead (fun l => b :: l) := by
  cases s with
  | nil => rfl
  | cons c s => rw [linesOf, if_neg (fun hbreak => h hbreak.1)]

/-- A text without a break stays on the first line. -/
theorem linesOf_append {l : List UInt8} (h : cr ∉ l) (s : List UInt8) :
    linesOf (l ++ s) = (linesOf s).modifyHead (fun t => l ++ t) := by
  induction l with
  | nil =>
    show linesOf s = (linesOf s).modifyHead id
    rw [List.modifyHead_id]
    rfl
  | cons b l ih =>
    obtain ⟨hne, hl⟩ := not_or.mp (mt List.mem_cons.mpr h)
    rw [List.cons_append, linesOf_cons_of_ne (Ne.symm hne), ih hl, List.modifyHead_modifyHead]
    rfl

/-- The lines that were put together come apart again. -/
theorem linesOf_intercalate {first : List UInt8} {rest : List (List UInt8)}
    (h : ∀ l ∈ first :: rest, cr ∉ l) :
    linesOf (crlf.intercalate (first :: rest)) = first :: rest := by
  induction rest generalizing first with
  | nil =>
    have hlast := linesOf_append (h first List.mem_cons_self) []
    rw [List.append_nil] at hlast
    rw [List.intercalate_singleton, hlast]
    simp [linesOf]
  | cons next rest ih =>
    obtain ⟨hfirst, hrest⟩ := List.forall_mem_cons.mp h
    have hbreak : ∀ s : List UInt8, linesOf (crlf ++ s) = [] :: linesOf s := by
      intro s
      show linesOf (cr :: lf :: s) = _
      rw [linesOf, if_pos ⟨rfl, rfl⟩]
    rw [List.intercalate_cons_cons, List.append_assoc, linesOf_append hfirst, hbreak, ih hrest]
    simp

end Text.Header
