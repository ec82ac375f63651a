import NasServices.Lib.Checked

/-!
# Texts in the arrays of a struct

The memory of a struct is a list of bytes, and a `Member` is the place of one of its character
arrays. A `Copy` is a `memcpy` to some offset; it may write past its array into the next, and faults
only outside of the struct. `copyAll` makes one copy after the other.

`HoldsText` says that an array holds a NUL-terminated text: a copy that is shorter than its array leaves its
text there (`holdsText_copyAll`), and one that fills the array or is longer leaves no NUL in it
(`not_holdsText_copyAll`). `Slot`s are members with the texts for them; `holdsAll_iff_of_unchecked` and
`holdsAll_iff_of_checked` are about code that copies every text and code that leaves out those that are too long.
-/

namespace Nas.Lib.StructMemory

open Checked

structure Member where
  offset : Nat
  size : Nat
  deriving DecidableEq, Repr

structure Copy where
  offset : Nat
  text : List UInt8
  deriving DecidableEq, Repr

def copyTo (mem : List UInt8) (w : Copy) : Checked (List UInt8) := writeN mem w.offset w.text

def copyAll (mem : List UInt8) (ws : List Copy) : Checked (List UInt8) := ws.foldlM copyTo mem

def bytesOf (mem : List UInt8) (m : Member) : List UInt8 := (mem.drop m.offset).take m.size

def HoldsText (mem : List UInt8) (m : Member) (text : List UInt8) : Prop :=
  0 ∈ bytesOf mem m ∧ (bytesOf mem m).takeWhile (· ≠ 0) = text

def Copy.Misses (w : Copy) (m : Member) : Prop :=
  w.offset + w.text.length ≤ m.offset ∨ m.offset + m.size ≤ w.offset

variable {mem mem' : List UInt8} {m : Member} {w : Copy} {ws : List Copy} {text : List UInt8}

theorem copyTo_eq_ok_iff : copyTo mem w = .ok mem' ↔ w.offset + w.text.length ≤ mem.length ∧
    mem' = mem.take w.offset ++ w.text ++ mem.drop (w.offset + w.text.length) := by
  unfold copyTo writeN
  by_cases h : w.offset + w.text.length ≤ mem.length
  · rw [if_pos h, Except.ok.injEq]
    exact ⟨fun heq => ⟨h, heq.symm⟩, fun hand => hand.2.symm⟩
  · rw [if_neg h]
    exact iff_of_false nofun fun hand => h hand.1

theorem length_copyTo (h : copyTo mem w = .ok mem') : mem'.length = mem.length := by
  obtain ⟨hle, rfl⟩ := copyTo_eq_ok_iff.mp h
  exact length_overwrite hle

theorem copyAll_cons_eq_ok_iff :
    copyAll mem (w :: ws) = .ok mem' ↔ ∃ mid, copyTo mem w = .ok mid ∧ copyAll mid ws = .ok mem' :=
  bind_eq_ok_iff

theorem copyAll_append (mem : List UInt8) (vs ws : List Copy) :
    copyAll mem (vs ++ ws) = copyAll mem vs >>= fun mid => copyAll mid ws :=
  List.foldlM_append

theorem copyAll_append_eq_ok_iff {vs : List Copy} :
    copyAll mem (vs ++ ws) = .ok mem' ↔ ∃ mid, copyAll mem vs = .ok mid ∧ copyAll mid ws = .ok mem' := by
  rw [copyAll_append]
  exact bind_eq_ok_iff

theorem copyAll_isOk_iff :
    (∃ mem', copyAll mem ws = .ok mem') ↔ ∀ w ∈ ws, w.offset + w.text.length ≤ mem.length := by
  induction ws generalizing mem with
  | nil => exact iff_of_true ⟨mem, rfl⟩ fun w hw => absurd hw List.not_mem_nil
  | cons w ws ih =>
    simp only [copyAll_cons_eq_ok_iff, List.forall_mem_cons]
    constructor
    · intro hex
      obtain ⟨mem', mid, hw, hws⟩ := hex
      rw [← length_copyTo hw]
      refine ⟨?_, ih.mp ⟨mem', hws⟩⟩
      rw [length_copyTo hw]
      exact (copyTo_eq_ok_iff.mp hw).1
    · intro hall
      have hw := copyTo_eq_ok_iff.mpr ⟨hall.1, rfl⟩
      obtain ⟨mem', hws⟩ := ih.mpr fun v hv => (length_copyTo hw).symm ▸ hall.2 v hv
      exact ⟨mem', _, hw, hws⟩

/-! ## What a member holds afterwards -/

theorem bytesOf_eq_drop_take (mem : List UInt8) (m : Member) :
    bytesOf mem m = (mem.take (m.offset + m.size)).drop m.offset := by
  rw [bytesOf, List.drop_take, Nat.add_sub_cancel_left]

theorem bytesOf_copyTo_of_misses (h : copyTo mem w = .ok mem') (hmiss : w.Misses m) :
    bytesOf mem' m = bytesOf mem m := by
  obtain ⟨hle, rfl⟩ := copyTo_eq_ok_iff.mp h
  have htake : (mem.take w.offset).length = w.offset := by
    rw [List.length_take]
    omega
  rcases hmiss with hbefore | hbehind
  · have hlen : (mem.take w.offset ++ w.text).length = w.offset + w.text.length := by
      rw [List.length_append, htake]
    rw [bytesOf, bytesOf, List.drop_append, List.drop_eq_nil_of_le (by omega), List.nil_append, hlen,
      List.drop_drop]
    congr 2
    omega
  · rw [bytesOf_eq_drop_take, bytesOf_eq_drop_take, List.append_assoc, List.take_append, htake,
      show m.offset + m.size - w.offset = 0 by omega, List.take_zero, List.append_nil, List.take_take,
      min_eq_left hbehind]

theorem bytesOf_copyAll (h : copyAll mem ws = .ok mem') (hmiss : ∀ w ∈ ws, w.Misses m) :
    bytesOf mem' m = bytesOf mem m := by
  induction ws generalizing mem with
  | nil => rw [Except.ok.inj h]
  | cons w ws ih =>
    obtain ⟨mid, hw, hws⟩ := copyAll_cons_eq_ok_iff.mp h
    rw [ih hws fun v hv => hmiss v (List.mem_cons_of_mem w hv),
      bytesOf_copyTo_of_misses hw (hmiss w List.mem_cons_self)]

theorem bytesOf_copyTo (h : copyTo mem w = .ok mem') (hm : m.offset = w.offset) :
    bytesOf mem' m = (w.text ++ mem.drop (w.offset + w.text.length)).take m.size := by
  obtain ⟨hle, rfl⟩ := copyTo_eq_ok_iff.mp h
  have htake : (mem.take w.offset).length = w.offset := by
    rw [List.length_take]
    omega
  rw [bytesOf, hm, List.append_assoc, List.drop_append, htake, Nat.sub_self, List.drop_zero,
    List.drop_eq_nil_of_le (by omega), List.nil_append]

theorem holdsText_of_bytesOf {n : Nat} (htext : 0 ∉ text)
    (h : bytesOf mem m = text ++ List.replicate (n + 1) 0) : HoldsText mem m text := by
  have hnonzero : ∀ c ∈ text, decide (c ≠ 0) = true := fun c hc =>
    decide_eq_true fun h0 => htext (h0 ▸ hc)
  refine ⟨?_, ?_⟩
  · rw [h]
    exact List.mem_append_right _ (List.mem_replicate.mpr ⟨Nat.succ_ne_zero n, rfl⟩)
  · rw [h, List.takeWhile_append_of_pos hnonzero, List.replicate_succ, List.takeWhile_cons_of_neg (by simp),
      List.append_nil]

/-- A text that is shorter than its array is there when the copies are done, if the array was cleared and no
other copy touches it. -/
theorem holdsText_copyAll {vs us : List Copy} (h : copyAll mem (vs ++ w :: us) = .ok mem')
    (hzero : bytesOf mem m = List.replicate m.size 0) (hm : m.offset = w.offset) (htext : 0 ∉ w.text)
    (hlen : w.text.length < m.size) (hvs : ∀ v ∈ vs, v.Misses m) (hus : ∀ u ∈ us, u.Misses m) :
    HoldsText mem' m w.text := by
  obtain ⟨mid, hpre, hrest⟩ := copyAll_append_eq_ok_iff.mp h
  obtain ⟨mid', hw, hpost⟩ := copyAll_cons_eq_ok_iff.mp hrest
  apply holdsText_of_bytesOf (n := m.size - w.text.length - 1) htext
  rw [bytesOf_copyAll hpost hus, bytesOf_copyTo hw hm, List.take_append, List.take_of_length_le hlen.le]
  congr 1
  -- what follows the text in its array is what was there before any copy
  have hmid : bytesOf mid m = List.replicate m.size 0 := by rw [bytesOf_copyAll hpre hvs, hzero]
  have hdrop := congrArg (List.drop w.text.length) hmid
  rw [bytesOf, List.drop_take, List.drop_drop, List.drop_replicate, hm] at hdrop
  rw [hdrop]
  congr 1
  omega

/-- A text that fills its array, or runs over it, leaves no NUL there. -/
theorem not_holdsText_copyAll {vs us : List Copy} (h : copyAll mem (vs ++ w :: us) = .ok mem')
    (hm : m.offset = w.offset) (htext : 0 ∉ w.text) (hlen : m.size ≤ w.text.length)
    (hus : ∀ u ∈ us, u.Misses m) : ¬ HoldsText mem' m text := by
  obtain ⟨mid, -, hrest⟩ := copyAll_append_eq_ok_iff.mp h
  obtain ⟨mid', hw, hpost⟩ := copyAll_cons_eq_ok_iff.mp hrest
  intro hholds
  have hmem := hholds.1
  rw [bytesOf_copyAll hpost hus, bytesOf_copyTo hw hm, List.take_append_of_le_length hlen] at hmem
  exact htext (List.mem_of_mem_take hmem)

theorem copyTo_twice (h : copyTo mem w = .ok mem') : copyTo mem' w = .ok mem' := by
  obtain ⟨hle, rfl⟩ := copyTo_eq_ok_iff.mp h
  rw [List.append_assoc]
  apply writeN_append _ rfl
  rw [List.length_take]
  omega

theorem copyAll_last_twice (mem : List UInt8) (ws : List Copy) (w : Copy) (f : List UInt8 → Checked (List UInt8)) :
    (copyAll mem (ws ++ [w]) >>= fun mid => copyTo mid w >>= f) = (copyAll mem (ws ++ [w]) >>= f) := by
  cases h : copyAll mem (ws ++ [w]) with
  | error e => rfl
  | ok mid =>
    obtain ⟨mid₀, -, hlast⟩ := copyAll_append_eq_ok_iff.mp h
    obtain ⟨mid₁, hw, hnil⟩ := copyAll_cons_eq_ok_iff.mp hlast
    rw [ok_bind, ok_bind, ← Except.ok.inj hnil, copyTo_twice hw, ok_bind]

/-! ## Several members -/

structure Slot where
  member : Member
  text : List UInt8
  deriving DecidableEq, Repr

def Slot.copy (s : Slot) : Copy := ⟨s.member.offset, s.text⟩

def Ordered (ss : List Slot) : Prop := ss.Pairwise fun s s' => s.member.offset + s.member.size ≤ s'.member.offset

structure Ready (mem : List UInt8) (ss : List Slot) (rest : List Copy) : Prop where
  ordered : Ordered ss
  cleared : ∀ s ∈ ss, bytesOf mem s.member = List.replicate s.member.size 0
  nulFree : ∀ s ∈ ss, 0 ∉ s.text
  behind : ∀ w ∈ rest, ∀ s ∈ ss, s.member.offset + s.member.size ≤ w.offset

variable {ss : List Slot} {rest : List Copy} {s : Slot}

theorem Ordered.split (h : Ordered ss) (hs : s ∈ ss) : ∃ as bs, ss = as ++ s :: bs ∧
    (∀ a ∈ as, a.member.offset + a.member.size ≤ s.member.offset) ∧
    ∀ b ∈ bs, s.member.offset + s.member.size ≤ b.member.offset := by
  obtain ⟨as, bs, rfl⟩ := List.append_of_mem hs
  obtain ⟨-, hbs, hcross⟩ := List.pairwise_append.mp h
  exact ⟨as, bs, rfl, fun a ha => hcross a ha s List.mem_cons_self, (List.pairwise_cons.mp hbs).1⟩

theorem Ready.misses_rest (h : Ready mem ss rest) (hs : s ∈ ss) : ∀ w ∈ rest, w.Misses s.member :=
  fun w hw => .inr (h.behind w hw s hs)

/-- Code that copies every text: all members hold theirs exactly when all texts are shorter than their arrays. -/
theorem holdsAll_iff_of_unchecked (hr : Ready mem ss rest) (h : copyAll mem (ss.map Slot.copy ++ rest) = .ok mem') :
    (∀ s ∈ ss, HoldsText mem' s.member s.text) ↔ ∀ s ∈ ss, s.text.length < s.member.size := by
  have hsplit : ∀ s ∈ ss, ∃ as bs : List Slot, copyAll mem (as.map Slot.copy ++ s.copy :: (bs.map Slot.copy ++ rest)) = .ok mem' ∧
      as ⊆ ss ∧ (∀ a ∈ as, a.member.offset + a.member.size ≤ s.member.offset) ∧
      ∀ u ∈ bs.map Slot.copy ++ rest, u.Misses s.member := by
    intro s hs
    obtain ⟨as, bs, heq, has, hbs⟩ := hr.ordered.split hs
    refine ⟨as, bs, ?_, ?_, has, ?_⟩
    · rw [heq, List.map_append, List.map_cons, List.append_assoc, List.cons_append] at h
      exact h
    · rw [heq]
      exact List.subset_append_left as (s :: bs)
    · intro u hu
      rcases List.mem_append.mp hu with hcopied | hrest
      · obtain ⟨b, hb, rfl⟩ := List.mem_map.mp hcopied
        exact .inr (hbs b hb)
      · exact hr.misses_rest hs u hrest
  constructor
  · intro hall s hs
    obtain ⟨as, bs, hcopy, -, -, hpost⟩ := hsplit s hs
    by_contra hlong
    exact not_holdsText_copyAll hcopy rfl (hr.nulFree s hs) (Nat.not_lt.mp hlong) hpost (hall s hs)
  · intro hfit s hs
    obtain ⟨as, bs, hcopy, hsub, has, hpost⟩ := hsplit s hs
    apply holdsText_copyAll hcopy (hr.cleared s hs) rfl (hr.nulFree s hs) (hfit s hs) _ hpost
    intro v hv
    obtain ⟨a, ha, rfl⟩ := List.mem_map.mp hv
    have hlt := hfit a (hsub ha)
    have hbefore := has a ha
    exact .inl (by show a.member.offset + a.text.length ≤ s.member.offset; omega)

/-- Code that leaves out the texts that are longer than their array. -/
def copyFitting (mem : List UInt8) (ss : List Slot) : Checked (List UInt8) :=
  ss.foldlM (fun mem s => if s.text.length ≤ s.member.size then copyTo mem s.copy else .ok mem) mem

theorem copyFitting_eq (mem : List UInt8) (ss : List Slot) :
    copyFitting mem ss = copyAll mem ((ss.filter fun s => s.text.length ≤ s.member.size).map Slot.copy) := by
  induction ss generalizing mem with
  | nil => rfl
  | cons s ss ih =>
    show ((if s.text.length ≤ s.member.size then copyTo mem s.copy else .ok mem) >>= fun mid =>
      copyFitting mid ss) = _
    by_cases hle : s.text.length ≤ s.member.size
    · rw [if_pos hle, List.filter_cons_of_pos (by simpa using hle), List.map_cons]
      exact congrArg _ (funext ih)
    · rw [if_neg hle, List.filter_cons_of_neg (by simpa using hle)]
      exact ih mem

/-- Such code never writes outside of the struct. -/
theorem copyFitting_ok (hinside : ∀ s ∈ ss, s.member.offset + s.member.size ≤ mem.length) :
    ∃ mem', copyFitting mem ss = .ok mem' := by
  rw [copyFitting_eq, copyAll_isOk_iff]
  intro w hw
  obtain ⟨s, hs, rfl⟩ := List.mem_map.mp hw
  obtain ⟨hmem, hle⟩ := List.mem_filter.mp hs
  have hfits : s.text.length ≤ s.member.size := by simpa using hle
  have hin := hinside s hmem
  show s.member.offset + s.text.length ≤ mem.length
  omega

/-- The same result as for code that does not look: a text that is left out is not there either. -/
theorem holdsAll_iff_of_checked (hr : Ready mem ss []) (h : copyFitting mem ss = .ok mem') :
    (∀ s ∈ ss, HoldsText mem' s.member s.text) ↔ ∀ s ∈ ss, s.text.length < s.member.size := by
  rw [copyFitting_eq] at h
  set fitting := ss.filter fun s => s.text.length ≤ s.member.size with hfitting
  have hfits : ∀ s ∈ fitting, s ∈ ss ∧ s.text.length ≤ s.member.size := by
    intro s hs
    obtain ⟨hmem, hle⟩ := List.mem_filter.mp hs
    exact ⟨hmem, by simpa using hle⟩
  have hready : Ready mem fitting [] :=
    ⟨hr.ordered.filter _, fun s hs => hr.cleared s (hfits s hs).1, fun s hs => hr.nulFree s (hfits s hs).1,
      fun w hw => absurd hw List.not_mem_nil⟩
  have hthose := holdsAll_iff_of_unchecked hready (by rwa [List.append_nil])
  constructor
  · intro hall s hs
    by_cases hle : s.text.length ≤ s.member.size
    · exact hthose.mp (fun s hs => hall s (hfits s hs).1) s (List.mem_filter.mpr ⟨hs, by simpa using hle⟩)
    · -- a text that was left out: its array is still cleared, and the text is not empty
      have hsame : bytesOf mem' s.member = bytesOf mem s.member := by
        apply bytesOf_copyAll h
        intro w hw
        obtain ⟨f, hf, rfl⟩ := List.mem_map.mp hw
        obtain ⟨hmem, hfit⟩ := hfits f hf
        obtain ⟨as, bs, heq, has, hbs⟩ := hr.ordered.split hs
        rw [heq] at hmem
        rcases List.mem_append.mp hmem with ha | hb
        · have hbefore := has f ha
          exact .inl (by show f.member.offset + f.text.length ≤ s.member.offset; omega)
        · rcases List.mem_cons.mp hb with rfl | hb
          · exact absurd hfit hle
          · exact .inr (hbs f hb)
      obtain ⟨-, htext⟩ := hall s hs
      rw [hsame, hr.cleared s hs] at htext
      have hnil : (List.replicate s.member.size (0 : UInt8)).takeWhile (· ≠ 0) = [] := by
        cases s.member.size <;> rfl
      rw [← htext, hnil, List.length_nil] at hle
      omega
  · intro hfit s hs
    exact hthose.mpr (fun s hs => hfit s (hfits s hs).1) s
      (List.mem_filter.mpr ⟨hs, by simpa using (hfit s hs).le⟩)

end Nas.Lib.StructMemory
