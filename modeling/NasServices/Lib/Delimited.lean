import Mathlib.Data.List.DropRight
import Mathlib.Data.List.Infix
import Mathlib.Tactic.Common

/-!
# Lists of texts in one text

`fields` splits a text at a separator, trims the pieces and drops the empty ones. A list of texts that was
joined with a padded separator is read back by it if every text is `Plain` (`fields_intercalate`), and it
reads no other texts (`plain_of_mem_fields`).
-/

namespace Nas.Lib.Delimited

variable {α : Type*} (isPad : α → Bool) (sep : α)

def trim (x : List α) : List α := (x.dropWhile isPad).rdropWhile isPad

/-- A text that is not empty, holds no separator and neither begins nor ends with padding. -/
structure Plain (x : List α) : Prop where
  ne_nil : x ≠ []
  sep_notMem : sep ∉ x
  head : ∀ c ∈ x.head?, isPad c = false
  last : ∀ c ∈ x.getLast?, isPad c = false

variable {isPad sep} {x y text : List α} {xs : List (List α)}

theorem trim_pad_left (hy : ∀ c ∈ y, isPad c = true) (x : List α) : trim isPad (y ++ x) = trim isPad x := by
  rw [trim, List.dropWhile_append_of_pos hy, trim]

theorem Plain.trim_append (h : Plain isPad sep x) (hy : ∀ c ∈ y, isPad c = true) : trim isPad (x ++ y) = x := by
  obtain ⟨c, cs, rfl⟩ := List.exists_cons_of_ne_nil h.ne_nil
  have hdrop : (c :: cs ++ y).dropWhile isPad = c :: cs ++ y :=
    List.dropWhile_cons_of_neg (by rw [h.head c rfl]; exact Bool.false_ne_true)
  rw [trim, hdrop, List.rdropWhile, List.reverse_append,
    List.dropWhile_append_of_pos fun d hd => hy d (List.mem_reverse.mp hd)]
  show (c :: cs).rdropWhile isPad = c :: cs
  refine List.rdropWhile_eq_self_iff.mpr fun hne => ?_
  rw [h.last _ (List.getLast?_eq_some_getLast hne)]
  exact Bool.false_ne_true

theorem head_dropWhile (x : List α) : ∀ c ∈ (x.dropWhile isPad).head?, isPad c = false := by
  intro c hc
  have hnot := List.head?_dropWhile_not isPad x
  rw [Option.mem_def.mp hc] at hnot
  exact hnot

theorem trim_subset (x : List α) : trim isPad x ⊆ x :=
  List.Subset.trans (List.rdropWhile_prefix isPad _).subset (List.dropWhile_suffix isPad).subset

theorem sep_notMem_pad (hsep : isPad sep = false) (hx : ∀ c ∈ x, isPad c = true) : sep ∉ x := by
  intro hmem
  rw [hx sep hmem] at hsep
  cases hsep

variable [DecidableEq α]

instance : Decidable (Plain isPad sep x) :=
  decidable_of_iff (x ≠ [] ∧ sep ∉ x ∧ (∀ c ∈ x.head?, isPad c = false) ∧ ∀ c ∈ x.getLast?, isPad c = false)
    ⟨fun h => ⟨h.1, h.2.1, h.2.2.1, h.2.2.2⟩, fun h => ⟨h.ne_nil, h.sep_notMem, h.head, h.last⟩⟩

variable (isPad sep) in
def fields (text : List α) : List (List α) := ((text.splitOn sep).map (trim isPad)).filter (· ≠ [])

theorem notMem_of_mem_splitOn (h : x ∈ text.splitOn sep) : sep ∉ x := by
  induction text generalizing x with
  | nil =>
    rw [show ([] : List α).splitOn sep = [[]] from rfl, List.mem_singleton] at h
    simp [h]
  | cons c text ih =>
    have hcons : (c :: text).splitOn sep =
        if (c == sep) = true then [] :: text.splitOn sep else (text.splitOn sep).modifyHead (c :: ·) :=
      List.splitOnP_cons_eq_if_modifyHead _ _
    rw [hcons] at h
    by_cases hc : c = sep
    · rw [if_pos (beq_iff_eq.mpr hc)] at h
      rcases List.mem_cons.mp h with rfl | h
      · simp
      · exact ih h
    · obtain ⟨y, ys, hys⟩ := List.exists_cons_of_ne_nil (List.splitOn_ne_nil sep text)
      rw [if_neg fun heq => hc (beq_iff_eq.mp heq), hys, List.modifyHead_cons] at h
      rcases List.mem_cons.mp h with rfl | h
      · have hy : sep ∉ y := ih (by rw [hys]; exact List.mem_cons_self)
        simp [hy, Ne.symm hc]
      · exact ih (by rw [hys]; exact List.mem_cons_of_mem _ h)

theorem plain_of_mem_fields (h : x ∈ fields isPad sep text) : Plain isPad sep x := by
  rw [fields, List.mem_filter, List.mem_map] at h
  obtain ⟨⟨y, hy, rfl⟩, hne⟩ := h
  have hne : trim isPad y ≠ [] := of_decide_eq_true hne
  refine ⟨hne, fun hmem => notMem_of_mem_splitOn hy (trim_subset y hmem), ?_, ?_⟩
  · intro c hc
    -- what is left after trimming at the end still begins as before
    have hpre : trim isPad y <+: y.dropWhile isPad := List.rdropWhile_prefix isPad _
    refine head_dropWhile y c ?_
    obtain ⟨z, hz⟩ := hpre
    rw [← hz, List.head?_append_of_ne_nil _ hne]
    exact hc
  · intro c hc
    rw [List.getLast?_eq_some_getLast hne] at hc
    have hlast := List.rdropWhile_last_not isPad (y.dropWhile isPad) hne
    rw [← Option.some.inj hc]
    exact Bool.eq_false_iff.mpr hlast

/-! ## Joined texts -/

theorem fields_append_sep (a b : List α) :
    fields isPad sep (a ++ sep :: b) = fields isPad sep a ++ fields isPad sep b := by
  have hsplit : (a ++ sep :: b).splitOn sep = a.splitOn sep ++ b.splitOn sep :=
    List.splitOnP_append_cons a b (by simp)
  rw [fields, hsplit, List.map_append, List.filter_append]
  rfl

variable {pre post : List α}

section

variable (hsep : isPad sep = false) (hpre : ∀ c ∈ pre, isPad c = true) (hpost : ∀ c ∈ post, isPad c = true)
include hsep hpre

theorem fields_pad : fields isPad sep pre = [] := by
  have htrim : trim isPad pre = [] := by
    rw [trim, List.dropWhile_eq_nil_iff.mpr hpre, List.rdropWhile_nil]
  rw [fields, List.splitOn_eq_singleton (sep_notMem_pad hsep hpre), List.map_singleton, htrim]
  rfl

include hpost

theorem Plain.fields_padded (h : Plain isPad sep x) : fields isPad sep (post ++ (x ++ pre)) = [x] := by
  have hnot : sep ∉ post ++ (x ++ pre) := by
    simp [sep_notMem_pad hsep hpre, sep_notMem_pad hsep hpost, h.sep_notMem]
  rw [fields, List.splitOn_eq_singleton hnot, List.map_singleton, trim_pad_left hpost, h.trim_append hpre]
  exact List.filter_eq_self.mpr (by simp [h.ne_nil])

/-- Texts that are joined with a padded separator are read back. -/
theorem fields_intercalate (h : ∀ x ∈ xs, Plain isPad sep x) :
    fields isPad sep ((pre ++ sep :: post).intercalate xs) = xs := by
  -- from the second text on, the padding after the separator stands before it
  suffices hlead : ∀ lead : List α, (∀ c ∈ lead, isPad c = true) →
      fields isPad sep (lead ++ (pre ++ sep :: post).intercalate xs) = xs from
    hlead [] (by simp)
  induction xs with
  | nil =>
    intro lead hl
    rw [List.intercalate_nil, List.append_nil, fields_pad hsep hl]
  | cons x xs ih =>
    intro lead hl
    have hx := h x List.mem_cons_self
    cases xs with
    | nil =>
      rw [List.intercalate_singleton]
      have hone : fields isPad sep (lead ++ (x ++ [])) = [x] := hx.fields_padded hsep (by simp) hl
      rwa [List.append_nil] at hone
    | cons y xs =>
      rw [List.intercalate_cons_cons]
      have hsplit : lead ++ (x ++ (pre ++ sep :: post) ++ (pre ++ sep :: post).intercalate (y :: xs)) =
          (lead ++ (x ++ pre)) ++ sep :: (post ++ (pre ++ sep :: post).intercalate (y :: xs)) := by
        simp
      rw [hsplit, fields_append_sep, hx.fields_padded hsep hpre hl,
        ih (fun z hz => h z (List.mem_cons_of_mem _ hz)) post hpost, List.singleton_append]

end

end Nas.Lib.Delimited
