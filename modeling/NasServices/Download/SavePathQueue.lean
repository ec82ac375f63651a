import NasServices.Lib.LexicalPath
import NasServices.Lib.LinkedList

/-!
# The queue of recent folders

`SavePathQueue` keeps the folders that were used last in a list, and for each an iterator into the
list in a table. `Add` works in three steps: the old occurrence goes, the head goes if
the queue is full, and the element is appended. Between the first and the last step the table
can hold an iterator that dangles; `Sound.add` shows that none is left at the end, and
`addAll_recent` says what the queue holds after any calls.

`GetElementsString` writes the queue as one text and `Init` reads such a text. The text has no
escapes, so a queue comes back exactly if every folder is plain (`init_getElementsString_iff`).
-/

namespace Nas.Download

open Lib Lib.Delimited
open Lib.LexicalPath (Text)

structure SavePathQueue where
  maxSize : Nat
  queue : LinkedList Text
  lookupTable : Text → Option Nat

def isWhitespaceAscii (c : Char) : Bool := c ∈ [' ', '\t', '\n', '\x0b', '\x0c', '\r']

namespace SavePathQueue

def empty (maxSize : Nat) : SavePathQueue := ⟨maxSize, .empty, fun _ => none⟩

def eraseOld (q : SavePathQueue) (element : Text) : Option SavePathQueue :=
  match q.lookupTable element with
  | some it => (q.queue.erase it).map fun queue => { q with queue }
  | none => some q

def makeRoom (q : SavePathQueue) : Option SavePathQueue :=
  if q.queue.size = q.maxSize then do
    let front ← q.queue.front
    let queue ← q.queue.popFront
    some { q with queue, lookupTable := Function.update q.lookupTable front none }
  else some q

def append (q : SavePathQueue) (element : Text) : SavePathQueue :=
  let queue := q.queue.pushBack element
  { q with queue, lookupTable := Function.update q.lookupTable element queue.last }

/-- `Add`; `none` where the behaviour is undefined. Without `is_init` it also makes the text
of the queue, which is not used. -/
def add (q : SavePathQueue) (element : Text) : Option SavePathQueue := do
  let q ← q.eraseOld element
  let q ← q.makeRoom
  some (q.append element)

def addAll (q : SavePathQueue) (elements : List Text) : Option SavePathQueue := elements.foldlM add q

def joinElements : List Text → Text
  | [] => []
  | [e] => e
  | e :: es => e ++ " | ".toList ++ joinElements es

def getElementsString (q : SavePathQueue) : Text := joinElements q.queue.elements

def init (q : SavePathQueue) (savePath : Option Text) : Option SavePathQueue :=
  match savePath with
  | none => some q
  | some savePath => q.addAll (fields isWhitespaceAscii '|' savePath)

/-! ## One call of `Add` -/

variable {q : SavePathQueue} {adds : List Text} {e : Text} {n : Nat}

structure Sound (n : Nat) (adds : List Text) (q : SavePathQueue) : Prop where
  maxSize : q.maxSize = n
  indexes : q.queue.Indexes q.lookupTable
  elements : q.queue.elements = recent n adds

theorem eraseOld_spec (h : q.queue.Indexes q.lookupTable) (e : Text) :
    ∃ q', q.eraseOld e = some q' ∧ q'.maxSize = q.maxSize ∧ q'.queue.IndexesBut e q'.lookupTable ∧
      q'.queue.elements = q.queue.elements.filter (· ≠ e) := by
  unfold eraseOld
  cases htable : q.lookupTable e with
  | some it =>
    obtain ⟨queue, herase, hbut, helements⟩ := h.erase htable
    refine ⟨{ q with queue }, ?_, rfl, hbut, helements⟩
    show (q.queue.erase it).map _ = _
    rw [herase]
    rfl
  | none =>
    have hnot := h.eq_none_iff.mp htable
    have hself : q.queue.elements.filter (· ≠ e) = q.queue.elements :=
      List.filter_eq_self.mpr fun x hx => decide_eq_true fun heq => hnot (heq ▸ hx)
    exact ⟨q, rfl, rfl, h.of_notMem hnot, hself.symm⟩

theorem makeRoom_spec (hmax : 1 ≤ q.maxSize) (h : q.queue.IndexesBut e q.lookupTable) :
    ∃ q', q.makeRoom = some q' ∧ q'.maxSize = q.maxSize ∧ q'.queue.IndexesBut e q'.lookupTable ∧
      q'.queue.elements =
        if q.queue.elements.length = q.maxSize then q.queue.elements.tail else q.queue.elements := by
  unfold makeRoom
  rw [q.queue.length_elements]
  split
  · rename_i hfull
    have hne : q.queue.elements ≠ [] := by
      intro hnil
      rw [← q.queue.length_elements, hnil, List.length_nil] at hfull
      omega
    obtain ⟨front, queue, hfront, hpop, hbut, helements⟩ := h.popFront hne
    rw [hfront, hpop]
    exact ⟨_, rfl, rfl, hbut, helements⟩
  · exact ⟨q, rfl, rfl, h, rfl⟩

/-- One call keeps the queue sound, whatever is added. -/
theorem Sound.add (hmax : 1 ≤ n) (h : Sound n adds q) (e : Text) :
    ∃ q', q.add e = some q' ∧ Sound n (adds ++ [e]) q' := by
  obtain ⟨q₁, herase, hmax₁, hbut₁, helements₁⟩ := eraseOld_spec h.indexes e
  have hn : q₁.maxSize = n := hmax₁.trans h.maxSize
  obtain ⟨q₂, hroom, hmax₂, hbut₂, helements₂⟩ := makeRoom_spec (hn.symm ▸ hmax) hbut₁
  refine ⟨q₂.append e, ?_, hmax₂.trans hn, hbut₂.pushBack, ?_⟩
  · rw [SavePathQueue.add, herase, Option.bind_eq_bind, Option.bind_some, hroom]
    rfl
  · rw [recent_concat hmax, touch, append, LinkedList.elements_pushBack, helements₂, hn, helements₁, h.elements]

/-! ## Any calls of `Add` -/

theorem Sound.addAll (hmax : 1 ≤ n) (h : Sound n adds q) (es : List Text) :
    ∃ q', q.addAll es = some q' ∧ Sound n (adds ++ es) q' := by
  induction es generalizing q adds with
  | nil => exact ⟨q, rfl, by rwa [List.append_nil]⟩
  | cons e es ih =>
    obtain ⟨q₁, hadd, h₁⟩ := h.add hmax e
    obtain ⟨q', hrest, h'⟩ := ih h₁
    refine ⟨q', ?_, by rwa [List.append_assoc] at h'⟩
    rw [SavePathQueue.addAll, List.foldlM_cons, hadd]
    exact hrest

theorem sound_empty (n : Nat) : Sound n [] (empty n) where
  maxSize := rfl
  indexes e it := by simp [empty, LinkedList.empty]
  elements := by simp [empty, LinkedList.empty, LinkedList.elements, recent]

/-- After any calls on a new queue that holds at least one element: no folder is in the queue twice, there
are at most `max_size` of them, the table has an iterator for exactly these, each to its own position, and they
are the folders added last, the newest at the end. -/
theorem addAll_recent (maxSize : Nat) (hmax : 1 ≤ maxSize) (adds : List Text) :
    ∃ q, (empty maxSize).addAll adds = some q ∧ q.queue.elements.Nodup ∧ q.queue.elements.length ≤ maxSize ∧
      (∀ e it, q.lookupTable e = some it ↔ (it, e) ∈ q.queue.nodes) ∧
      q.queue.elements = recent maxSize adds ∧ q.queue.elements.getLast? = adds.getLast? := by
  obtain ⟨q, hq, hsound⟩ := (sound_empty maxSize).addAll hmax adds
  rw [List.nil_append] at hsound
  refine ⟨q, hq, hsound.indexes.nodup, ?_, hsound.indexes, hsound.elements, ?_⟩
  · rw [hsound.elements]
    exact length_recent_le maxSize adds
  · rw [hsound.elements]
    cases adds using List.reverseRecOn with
    | nil => simp [recent]
    | append_singleton adds e => rw [recent_concat hmax, touch, List.getLast?_concat, List.getLast?_concat]

/-- Two places, and a folder that is used again before a third one comes. -/
theorem addAll_recent_twoPlaces :
    ∃ q, (empty 2).addAll ["a".toList, "b".toList, "a".toList, "c".toList] = some q ∧
      q.queue.elements = ["a".toList, "c".toList] := by
  obtain ⟨q, hq, -, -, -, helements, -⟩ :=
    addAll_recent 2 (by decide) ["a".toList, "b".toList, "a".toList, "c".toList]
  exact ⟨q, hq, helements.trans (by decide +kernel)⟩

/-! ## The queue as a text -/

theorem joinElements_eq (es : List Text) : joinElements es = ([' '] ++ '|' :: [' ']).intercalate es := by
  induction es with
  | nil => rfl
  | cons e es ih =>
    cases es with
    | nil => simp [joinElements]
    | cons e' es =>
      rw [List.intercalate_cons_cons, ← ih]
      rfl

theorem add_empty_zero (e : Text) : (empty 0).add e = none := rfl

theorem sound_of_addAll (h : (empty n).addAll adds = some q) : Sound n adds q := by
  rcases Nat.eq_zero_or_pos n with rfl | hpos
  · cases adds with
    | nil =>
      obtain rfl := Option.some.inj h
      exact sound_empty 0
    | cons e adds =>
      rw [addAll, List.foldlM_cons, add_empty_zero] at h
      cases h
  · obtain ⟨q', hq', hsound⟩ := (sound_empty n).addAll hpos adds
    obtain rfl := Option.some.inj (hq'.symm.trans h)
    exact hsound

theorem addAll_of_nodup {es : List Text} (hnodup : es.Nodup) (hlen : es.length ≤ n) :
    ∃ q', (empty n).addAll es = some q' ∧ q'.queue.elements = es := by
  rcases Nat.eq_zero_or_pos n with rfl | hpos
  · obtain rfl := List.eq_nil_of_length_eq_zero (Nat.le_zero.mp hlen)
    exact ⟨empty 0, rfl, rfl⟩
  · obtain ⟨q', hq', hsound⟩ := (sound_empty n).addAll hpos es
    exact ⟨q', hq', hsound.elements.trans (recent_eq_self hnodup hlen)⟩

/-- A queue that was built by adding folders comes back from its text, in a queue of the same size, exactly if
no folder in it holds a bar or has white space at either end. -/
theorem init_getElementsString_iff (maxSize : Nat) (adds : List Text) (hadds : ∀ e ∈ adds, e ≠ [])
    (q : SavePathQueue) (hq : (empty maxSize).addAll adds = some q) :
    (∃ q', (empty maxSize).init (some q.getElementsString) = some q' ∧ q'.queue.elements = q.queue.elements) ↔
      ∀ e ∈ q.queue.elements, '|' ∉ e ∧ (∀ c ∈ e.head?, isWhitespaceAscii c = false) ∧
        ∀ c ∈ e.getLast?, isWhitespaceAscii c = false := by
  have hsound := sound_of_addAll hq
  constructor
  · rintro ⟨q', hq', hsame⟩ e he
    rw [← hsame, (sound_of_addAll hq').elements] at he
    have hplain := plain_of_mem_fields (mem_of_mem_recent he)
    exact ⟨hplain.sep_notMem, hplain.head, hplain.last⟩
  · intro h
    have hplain : ∀ e ∈ q.queue.elements, Plain isWhitespaceAscii '|' e := by
      intro e he
      rw [hsound.elements] at he
      have hne := hadds e (mem_of_mem_recent he)
      rw [← hsound.elements] at he
      exact ⟨hne, (h e he).1, (h e he).2.1, (h e he).2.2⟩
    have hfields : fields isWhitespaceAscii '|' q.getElementsString = q.queue.elements := by
      have hblank : ∀ c ∈ [' '], isWhitespaceAscii c = true := List.forall_mem_singleton.mpr (by decide)
      rw [getElementsString, joinElements_eq]
      exact fields_intercalate (by decide) hblank hblank hplain
    have hlen : q.queue.elements.length ≤ maxSize := by
      rw [hsound.elements]
      exact length_recent_le maxSize adds
    rw [init, hfields]
    exact addAll_of_nodup hsound.indexes.nodup hlen

/-- Two ordinary folders, one with a blank inside. -/
theorem init_getElementsString_ordinary :
    ∃ q q', (empty 5).addAll ["/nas/film".toList, "/nas/my music".toList] = some q ∧
      (empty 5).init (some q.getElementsString) = some q' ∧
      q'.queue.elements = ["/nas/film".toList, "/nas/my music".toList] := by
  obtain ⟨q, hq, hsound⟩ :=
    (sound_empty 5).addAll (by decide) ["/nas/film".toList, "/nas/my music".toList]
  have helements : q.queue.elements = ["/nas/film".toList, "/nas/my music".toList] :=
    hsound.elements.trans (by decide +kernel)
  have hne : ∀ e ∈ ["/nas/film".toList, "/nas/my music".toList], e ≠ [] := by simp
  have hplain : ∀ e ∈ ["/nas/film".toList, "/nas/my music".toList], '|' ∉ e ∧
      (∀ c ∈ e.head?, isWhitespaceAscii c = false) ∧ ∀ c ∈ e.getLast?, isWhitespaceAscii c = false := by
    simp [isWhitespaceAscii]
  obtain ⟨q', hq', hsame⟩ := (init_getElementsString_iff 5 _ hne q hq).mpr (helements ▸ hplain)
  exact ⟨q, q', hq, hq', hsame.trans helements⟩

/-- A folder with a bar comes back as two. -/
theorem folder_with_bar_split :
    let stored := (empty 5).addAll ["/nas/a|b".toList]
    stored.map (·.queue.elements) = some ["/nas/a|b".toList] ∧
      (stored.bind fun q => (empty 5).init (some q.getElementsString)).map (·.queue.elements) =
        some ["/nas/a".toList, "b".toList] := by
  decide +kernel

end SavePathQueue

end Nas.Download
