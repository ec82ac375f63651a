import NasServices.Lib.Backtrack

/-!
# The file name of an url

`GetFileNameFromUrl` cuts the path out of an url with one regular expression and takes what follows the
last slash. `uriMatch_eq` says what the expression finds: the path of the url, unless there is a line
break in the fragment. The dot of the expression does not match one, so that nothing matches then
and the function returns an empty name, where the other ways to no name lead to `index.html`.
-/

namespace Nas.NetCurl

open Lib Lib.Matcher

namespace Uri

abbrev Url := List UInt8

abbrev code (c : Char) : UInt8 := c.toUInt8

/-- `[^...]` -/
def noneOf (cs : List Char) (c : UInt8) : Bool := cs.all fun d => decide (c ≠ code d)

def char (c : Char) : Matcher UInt8 := one fun d => decide (d = code c)

/-- `(?:[^:/?#]+:)?` -/
def scheme : Matcher UInt8 :=
  (((one (noneOf [':', '/', '?', '#'])).seq (many (noneOf [':', '/', '?', '#']))).seq (char ':')).optional

/-- `(?://([^/?#]*))?` -/
def authority : Matcher UInt8 := ((char '/').seq ((char '/').seq (many (noneOf ['/', '?', '#'])))).optional

/-- `(?:\?([^#]*))?` -/
def query : Matcher UInt8 := ((char '?').seq (many (noneOf ['#']))).optional

/-- `(?:#(.*))?`; a dot stands for any character but a line break. -/
def fragment : Matcher UInt8 := ((char '#').seq (many (noneOf ['\n', '\r']))).optional

/-- `std::regex_match` of `uri_regex`: the second group, `([^?#]*)`, if there is a match. -/
def uriMatch (url : Url) : Option Url :=
  (scheme.seq authority url).findSome? fun s =>
    (many (noneOf ['?', '#']) s).findSome? fun t =>
      if [] ∈ query.seq fragment t then some (s.take (s.length - t.length)) else none

def indexHtml : Url := "index.html".toList.map code

def lastSegment (path : Url) : Url := (path.reverse.takeWhile (noneOf ['/'])).reverse

def getFileNameFromUrl (url : Url) : Url :=
  match uriMatch url with
  | none => []
  | some path =>
    if code '/' ∉ path then
      if path = [] then indexHtml else path
    else
      let fileName := lastSegment path
      if fileName = [] then indexHtml else fileName

/-! ## The path of an url -/

def dropScheme : Url → Url
  | [] => []
  | c :: s =>
    if noneOf [':', '/', '?', '#'] c then
      match s.dropWhile (noneOf [':', '/', '?', '#']) with
      | [] => c :: s
      | d :: rest => if d = code ':' then rest else c :: s
    else c :: s

def dropAuthority : Url → Url
  | c :: d :: s => if c = code '/' ∧ d = code '/' then s.dropWhile (noneOf ['/', '?', '#']) else c :: d :: s
  | s => s

def pathOf (url : Url) : Url := (dropAuthority (dropScheme url)).takeWhile (noneOf ['?', '#'])

def Clean (url : Url) : Prop := ∀ c ∈ url.dropWhile (noneOf ['#']), noneOf ['\n', '\r'] c = true

instance (url : Url) : Decidable (Clean url) := List.decidableBAll ..

variable {s t : Url} {c : UInt8} {c' : Char} {cs : List Char}

theorem ne_of_noneOf (h : noneOf cs c = true) (hmem : c' ∈ cs) : c ≠ code c' :=
  of_decide_eq_true (List.all_eq_true.mp h c' hmem)

theorem char_cons (c : Char) (d : UInt8) (s : Url) : char c (d :: s) = if d = code c then [s] else [] := by
  simp only [char, one, decide_eq_true_eq]

theorem char_seq_cons (c : Char) (f : Matcher UInt8) (d : UInt8) (s : Url) :
    (char c).seq f (d :: s) = if d = code c then f s else [] := by
  rw [Matcher.seq, char_cons]
  split
  · exact List.flatMap_singleton ..
  · rfl

/-! ## What the expression matches -/

theorem exists_scheme_eq (s : Url) : ∃ more, scheme s = dropScheme s :: more := by
  cases s with
  | nil => exact ⟨[], rfl⟩
  | cons c s =>
    have hcolon : (many (noneOf [':', '/', '?', '#']) s).flatMap (char ':') =
        char ':' (s.dropWhile (noneOf [':', '/', '?', '#'])) :=
      many_seq_one (fun d hd => decide_eq_false (ne_of_noneOf hd (by decide))) s
    rw [scheme, Matcher.optional, Matcher.seq, Matcher.seq, one, dropScheme]
    split
    · rw [List.flatMap_singleton, hcolon]
      cases s.dropWhile (noneOf [':', '/', '?', '#']) with
      | nil => exact ⟨[], rfl⟩
      | cons d rest =>
        rw [char_cons]
        dsimp only
        split
        · exact ⟨[c :: s], rfl⟩
        · exact ⟨[], rfl⟩
    · exact ⟨[], rfl⟩

theorem exists_authority_eq (s : Url) : ∃ more, authority s = dropAuthority s :: more := by
  rw [authority, Matcher.optional]
  match s with
  | [] => exact ⟨[], rfl⟩
  | [c] =>
    rw [char_seq_cons]
    exact ⟨[], by split <;> rfl⟩
  | c :: d :: s =>
    rw [char_seq_cons, char_seq_cons, dropAuthority]
    by_cases hc : c = code '/'
    · by_cases hd : d = code '/'
      · obtain ⟨more, hmore⟩ := exists_many_eq (noneOf ['/', '?', '#']) s
        exact ⟨more ++ [c :: d :: s], by rw [if_pos hc, if_pos hd, if_pos ⟨hc, hd⟩, hmore]; rfl⟩
      · exact ⟨[], by rw [if_pos hc, if_neg hd, if_neg fun h => hd h.2]; rfl⟩
    · exact ⟨[], by rw [if_neg hc, if_neg fun h => hc h.1]; rfl⟩

theorem takes_char {P : UInt8 → Prop} (h : P (code c')) : Takes P (char c') :=
  takes_one fun _ hd => of_decide_eq_true hd ▸ h

theorem noneOf_singleton (hmem : c' ∈ cs) : ∀ c : UInt8, noneOf cs c = true → noneOf [c'] c = true := by
  intro c hc
  simpa [noneOf] using ne_of_noneOf hc hmem

/-- Nothing before the fragment takes a `#`. -/
abbrev NoHash (c : UInt8) : Prop := noneOf ['#'] c = true

theorem takes_query : Takes NoHash query :=
  ((takes_char (by decide)).seq (takes_many fun _ hc => hc)).optional

theorem takes_path : Takes NoHash (many (noneOf ['?', '#'])) := takes_many (noneOf_singleton (by decide))

theorem takes_scheme_authority : Takes NoHash (scheme.seq authority) := by
  have hslash : Takes NoHash (char '/') := takes_char (by decide)
  have hcolon : Takes NoHash (char ':') := takes_char (by decide)
  have hclass : ∀ c, noneOf [':', '/', '?', '#'] c = true → NoHash c := noneOf_singleton (by decide)
  exact (((takes_one hclass).seq (takes_many hclass)).seq hcolon).optional.seq
    (hslash.seq (hslash.seq (takes_many (noneOf_singleton (by decide))))).optional

theorem takes_fragment : Takes (fun c : UInt8 => noneOf ['\n', '\r'] c = true) fragment :=
  ((takes_char (by decide)).seq (takes_many fun _ hc => hc)).optional

theorem clean_append {u : Url} (hu : ∀ c ∈ u, NoHash c) : Clean (u ++ t) ↔ Clean t := by
  rw [Clean, Clean, List.dropWhile_append_of_pos hu]

/-- The end of the expression matches from a text on only if its fragment has no line break. -/
theorem clean_of_nil_mem (h : [] ∈ query.seq fragment t) : Clean t := by
  obtain ⟨v, hv, hnil⟩ := List.mem_flatMap.mp h
  obtain ⟨u, rfl, hu⟩ := takes_query t v hv
  obtain ⟨w, rfl, hw⟩ := takes_fragment v [] hnil
  rw [clean_append hu, List.append_nil]
  exact fun c hc => hw c ((List.dropWhile_suffix _).subset hc)

theorem stops (p : UInt8 → Bool) (s : Url) : ∀ c ∈ (s.dropWhile p).head?, p c = false := by
  intro c hc
  have hstop := List.head?_dropWhile_not p s
  rw [Option.mem_def.mp hc] at hstop
  exact hstop

theorem nil_mem_fragment (h : Clean t) : [] ∈ fragment (t.dropWhile (noneOf ['#'])) := by
  have hstop := stops (noneOf ['#']) t
  unfold Clean at h
  cases hv : t.dropWhile (noneOf ['#']) with
  | nil => exact List.mem_append_right _ List.mem_cons_self
  | cons d f =>
    rw [hv] at h hstop
    have hd : d = code '#' := by simpa [noneOf] using hstop d rfl
    have hall : f.dropWhile (noneOf ['\n', '\r']) = [] :=
      List.dropWhile_eq_nil_iff.mpr fun c hc => h c (List.mem_cons_of_mem d hc)
    obtain ⟨more, hmore⟩ := exists_many_eq (noneOf ['\n', '\r']) f
    rw [fragment, Matcher.optional, char_seq_cons, if_pos hd, hmore, hall]
    exact List.mem_cons_self

/-- The end of the expression matches from where the path ends. -/
theorem nil_mem_of_clean (ht : ∀ c ∈ t.head?, noneOf ['?', '#'] c = false) (h : Clean t) :
    [] ∈ query.seq fragment t := by
  refine List.mem_flatMap.mpr ⟨t.dropWhile (noneOf ['#']), ?_, nil_mem_fragment h⟩
  cases t with
  | nil => exact List.mem_append_right _ List.mem_cons_self
  | cons c t =>
    rw [query, Matcher.optional, char_seq_cons, List.dropWhile_cons]
    have hc : c = code '?' ∨ c = code '#' := by simpa [noneOf, or_iff_not_imp_left] using ht c rfl
    rcases hc with rfl | rfl
    · obtain ⟨more, hmore⟩ := exists_many_eq (noneOf ['#']) t
      rw [if_pos rfl, if_pos (by decide), hmore]
      exact List.mem_cons_self
    · rw [show noneOf ['#'] (code '#' ) = false by decide]
      exact List.mem_append_right _ List.mem_cons_self

theorem take_sub_length_dropWhile (p : UInt8 → Bool) (s : Url) :
    s.take (s.length - (s.dropWhile p).length) = s.takeWhile p := by
  have hlength := congrArg List.length (List.takeWhile_append_dropWhile (p := p) (l := s))
  rw [List.length_append] at hlength
  rw [← hlength, Nat.add_sub_cancel]
  exact (List.prefix_iff_eq_take.mp (List.takeWhile_prefix p)).symm

/-- The expression matches if there is no line break in the fragment, and finds the path. -/
theorem uriMatch_eq (url : Url) : uriMatch url = if Clean url then some (pathOf url) else none := by
  split
  · rename_i h
    obtain ⟨schemes, hscheme⟩ := exists_scheme_eq url
    obtain ⟨authorities, hauthority⟩ := exists_authority_eq (dropScheme url)
    have hfirst : dropAuthority (dropScheme url) ∈ scheme.seq authority url := by
      rw [Matcher.seq, hscheme, List.flatMap_cons, hauthority]
      exact List.mem_cons_self
    obtain ⟨u, hu, hfront⟩ := takes_scheme_authority url _ hfirst
    rw [uriMatch, Matcher.seq, hscheme, List.flatMap_cons, hauthority, pathOf]
    generalize dropAuthority (dropScheme url) = s at hu
    obtain ⟨more, hmore⟩ := exists_many_eq (noneOf ['?', '#']) s
    have hclean : Clean (s.dropWhile (noneOf ['?', '#'])) := by
      rw [hu, clean_append hfront, ← List.takeWhile_append_dropWhile (p := noneOf ['?', '#']) (l := s)] at h
      refine (clean_append fun c hc => ?_).mp h
      exact noneOf_singleton (by decide) c (List.mem_takeWhile_imp hc)
    have hnil : [] ∈ query.seq fragment (s.dropWhile (noneOf ['?', '#'])) :=
      nil_mem_of_clean (stops _ s) hclean
    rw [List.cons_append, List.findSome?_cons, hmore, List.findSome?_cons, if_pos hnil,
      take_sub_length_dropWhile]
  · rename_i h
    refine List.findSome?_eq_none_iff.mpr fun s hs => List.findSome?_eq_none_iff.mpr fun t ht =>
      if_neg fun hnil => h ?_
    obtain ⟨u, rfl, hu⟩ := takes_scheme_authority url s hs
    obtain ⟨v, rfl, hv⟩ := takes_path s t ht
    rw [clean_append hu, clean_append hv]
    exact clean_of_nil_mem hnil

theorem lastSegment_of_notMem (h : code '/' ∉ s) : lastSegment s = s := by
  have hall : ∀ c ∈ s.reverse, noneOf ['/'] c = true := by
    intro c hc
    have hne : c ≠ code '/' := by
      rintro rfl
      exact h (List.mem_reverse.mp hc)
    simpa [noneOf] using hne
  rw [lastSegment, List.takeWhile_eq_self_iff.mpr hall, List.reverse_reverse]

theorem getFileNameFromUrl_eq (url : Url) :
    getFileNameFromUrl url =
      if Clean url then
        if lastSegment (pathOf url) = [] then indexHtml else lastSegment (pathOf url)
      else [] := by
  rw [getFileNameFromUrl, uriMatch_eq]
  by_cases h : Clean url
  · rw [if_pos h, if_pos h]
    dsimp only
    by_cases hslash : code '/' ∈ pathOf url
    · rw [if_neg (not_not.mpr hslash)]
    · rw [if_pos hslash, lastSegment_of_notMem hslash]
  · rw [if_neg h, if_neg h]

/-! ## The name -/

/-- The name can be used as that of a file, and comes from the path of the url. -/
structure Usable (url name : Url) : Prop where
  ne_nil : name ≠ []
  noneOf : ∀ c ∈ name, Uri.noneOf ['/', '?', '#'] c = true
  eq : name = if lastSegment (pathOf url) = [] then indexHtml else lastSegment (pathOf url)

theorem noneOf_indexHtml : ∀ c ∈ indexHtml, noneOf ['/', '?', '#'] c = true :=
  List.all_eq_true.mp (by decide)

theorem noneOf_lastSegment (url : Url) : ∀ c ∈ lastSegment (pathOf url), noneOf ['/', '?', '#'] c = true := by
  intro c hc
  rw [lastSegment, List.mem_reverse] at hc
  have hslash : noneOf ['/'] c = true := List.mem_takeWhile_imp hc
  have hpath : c ∈ pathOf url := List.mem_reverse.mp ((List.takeWhile_prefix _).subset hc)
  have hend : noneOf ['?', '#'] c = true := List.mem_takeWhile_imp hpath
  show (['/'] ++ ['?', '#']).all _ = true
  rw [List.all_append, Bool.and_eq_true]
  exact ⟨hslash, hend⟩

/-- For every byte string: the name is usable exactly if there is no line break from the first `#` on. -/
theorem usable_getFileNameFromUrl_iff (url : Url) : Usable url (getFileNameFromUrl url) ↔ Clean url := by
  rw [getFileNameFromUrl_eq]
  by_cases h : Clean url
  · rw [if_pos h]
    refine iff_of_true ⟨?_, ?_, rfl⟩ h
    · split
      · exact List.cons_ne_nil _ _
      · assumption
    · split
      · exact noneOf_indexHtml
      · exact noneOf_lastSegment url
  · rw [if_neg h]
    exact iff_of_false (fun hu => hu.ne_nil rfl) h

/-- A line break at the end of a link with a fragment: the name is empty. -/
theorem getFileNameFromUrl_lineBreak :
    getFileNameFromUrl ("http://nas/a.mp4#t\n".toList.map code) = [] ∧
      ¬ Usable ("http://nas/a.mp4#t\n".toList.map code)
        (getFileNameFromUrl ("http://nas/a.mp4#t\n".toList.map code)) :=
  have hempty : getFileNameFromUrl ("http://nas/a.mp4#t\n".toList.map code) = [] := by decide +kernel
  ⟨hempty, fun h => h.ne_nil hempty⟩

end Uri

end Nas.NetCurl
