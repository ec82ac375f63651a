import Mathlib.Data.List.Basic

/-!
# Tokens of a SQL text

`lex` reads a text as SQLite does: words, texts in single quotes in which two
quotes stand for one, names in double or back quotes, comments, and single
symbols. It is a transducer: `next` gives the tokens that a character
completes and the state after it.

`splice` builds a statement by putting arguments between quotes as they are.
`lex_splice_iff` says when this is safe: the text has the tokens that were
meant if and only if no argument contains a quote. The value that is really
read for an argument is `literal`; `literal_eq_some_iff` is the reason.
-/

namespace Nas.Lib.Sql

inductive Token
  /-- A keyword, a name or a number. -/
  | word (s : String)
  | text (s : String)
  | name (s : String)
  | symbol (c : Char)
  | unterminated
  deriving DecidableEq, Repr

def isWordChar (c : Char) : Bool := c.isAlphanum || c == '_' || c == '$' || 127 < c.toNat

def isQuote (c : Char) : Bool := c == '\'' || c == '"' || c == '\x60'

inductive LexState
  | plain (w : List Char)
  | quoted (q : Char) (s : List Char)
  /-- A quote inside a quoted text: its end, unless another one follows. -/
  | quoteSeen (q : Char) (s : List Char)
  | dash
  | lineComment
  | slash
  | blockComment
  | blockStar

def flush (w : List Char) : List Token := if w = [] then [] else [.word (String.ofList w)]

def closed (q : Char) (s : List Char) : Token :=
  if q = '\'' then .text (String.ofList s) else .name (String.ofList s)

def start (c : Char) : List Token × LexState :=
  if isWordChar c then ([], .plain [c])
  else if c.isWhitespace then ([], .plain [])
  else if isQuote c then ([], .quoted c [])
  else if c = '-' then ([], .dash)
  else if c = '/' then ([], .slash)
  else ([.symbol c], .plain [])

def next : LexState → Char → List Token × LexState
  | .plain w, c =>
    if isWordChar c then ([], .plain (w ++ [c])) else (flush w ++ (start c).1, (start c).2)
  | .quoted q s, c => if c = q then ([], .quoteSeen q s) else ([], .quoted q (s ++ [c]))
  | .quoteSeen q s, c =>
    if c = q then ([], .quoted q (s ++ [c])) else (closed q s :: (start c).1, (start c).2)
  | .dash, c => if c = '-' then ([], .lineComment) else (.symbol '-' :: (start c).1, (start c).2)
  | .lineComment, c => ([], if c = '\n' then .plain [] else .lineComment)
  | .slash, c => if c = '*' then ([], .blockComment) else (.symbol '/' :: (start c).1, (start c).2)
  | .blockComment, c => ([], if c = '*' then .blockStar else .blockComment)
  | .blockStar, c =>
    ([], if c = '/' then .plain [] else if c = '*' then .blockStar else .blockComment)

def finish : LexState → List Token
  | .plain w => flush w
  | .quoted _ _ => [.unterminated]
  | .quoteSeen q s => [closed q s]
  | .dash => [.symbol '-']
  | .slash => [.symbol '/']
  | .lineComment | .blockComment | .blockStar => []

def lexFrom : LexState → List Char → List Token
  | st, [] => finish st
  | st, c :: cs => (next st c).1 ++ lexFrom (next st c).2 cs

def lex (cs : List Char) : List Token := lexFrom (.plain []) cs

/-! ## Plain text -/

def isPlainChar (c : Char) : Bool := !isQuote c && c != '-' && c != '/'

theorem start_of_plain {c : Char} (h : isPlainChar c = true) : ∃ w, (start c).2 = .plain w := by
  simp only [isPlainChar, Bool.and_eq_true, Bool.not_eq_true', bne_iff_ne] at h
  unfold start
  split
  · exact ⟨_, rfl⟩
  · split
    · exact ⟨_, rfl⟩
    · rw [if_neg (by simp [h.1.1]), if_neg h.1.2, if_neg h.2]
      exact ⟨_, rfl⟩

theorem next_of_plain {c : Char} (h : isPlainChar c = true) (w : List Char) :
    ∃ w', (next (.plain w) c).2 = .plain w' := by
  unfold next
  dsimp only
  split
  · exact ⟨_, rfl⟩
  · exact start_of_plain h

/-- Plain text before a quote is read as if it ended there. -/
theorem lexFrom_plain_quote {cs : List Char} (h : ∀ c ∈ cs, isPlainChar c = true) (w ys : List Char) :
    lexFrom (.plain w) (cs ++ '\'' :: ys) = lexFrom (.plain w) cs ++ lexFrom (.quoted '\'' []) ys := by
  induction cs generalizing w with
  | nil =>
    show (flush w ++ []) ++ lexFrom (.quoted '\'' []) ys = flush w ++ lexFrom (.quoted '\'' []) ys
    rw [List.append_nil]
  | cons c cs ih =>
    obtain ⟨w', hw⟩ := next_of_plain (h c List.mem_cons_self) w
    simp only [List.cons_append, lexFrom, hw]
    rw [ih (fun x hx => h x (List.mem_cons_of_mem _ hx)), List.append_assoc]

theorem lexFrom_quoteSeen {cs : List Char} (h : cs.head? ≠ some '\'') (s : List Char) :
    lexFrom (.quoteSeen '\'' s) cs = .text (String.ofList s) :: lexFrom (.plain []) cs := by
  cases cs with
  | nil => rfl
  | cons c cs =>
    have hc : c ≠ '\'' := fun hc => h (by rw [hc]; rfl)
    simp only [lexFrom, next, if_neg hc, closed, if_true]
    split
    · rename_i hw
      simp [start, hw]
    · simp [flush]

/-! ## Quoted text -/

def literal : List Char → Option (List Char)
  | [] => none
  | [c] => if c = '\'' then some [] else none
  | c :: d :: cs =>
    if c = '\'' then if d = '\'' then (literal cs).map ('\'' :: ·) else some []
    else (literal (d :: cs)).map (c :: ·)

theorem literal_cons_of_ne {c : Char} (h : c ≠ '\'') (cs : List Char) :
    literal (c :: cs) = (literal cs).map (c :: ·) := by
  cases cs with
  | nil => simp [literal, h]
  | cons d cs => simp [literal, h]

theorem literal_quote {cs : List Char} (h : cs.head? ≠ some '\'') : literal ('\'' :: cs) = some [] := by
  cases cs with
  | nil => rfl
  | cons d cs =>
    have hd : d ≠ '\'' := fun hd => h (by rw [hd]; rfl)
    simp [literal, hd]

theorem literal_quote_quote (cs : List Char) :
    literal ('\'' :: '\'' :: cs) = (literal cs).map ('\'' :: ·) := by
  simp [literal]

theorem lexFrom_quoted (s cs : List Char) :
    (lexFrom (.quoted '\'' s) cs).head? =
      some (((literal cs).map fun z => Token.text (String.ofList (s ++ z))).getD .unterminated) := by
  induction cs using literal.induct generalizing s with
  | case1 => rfl
  | case2 => simp [lexFrom, next, literal, finish, closed]
  | case3 c hc => simp [lexFrom, next, literal, finish, hc]
  | case4 cs ih =>
    rw [literal_quote_quote]
    show (lexFrom (.quoted '\'' (s ++ ['\''])) cs).head? = _
    rw [ih]
    cases literal cs <;> simp
  | case5 d cs hd =>
    have hne : (d :: cs).head? ≠ some '\'' := by simpa using hd
    rw [literal_quote hne]
    show (lexFrom (.quoteSeen '\'' s) (d :: cs)).head? = _
    rw [lexFrom_quoteSeen hne]
    simp
  | case6 c d cs hc ih =>
    rw [literal_cons_of_ne hc]
    have hnext : next (.quoted '\'' s) c = ([], .quoted '\'' (s ++ [c])) := by simp [next, hc]
    rw [lexFrom, hnext, List.nil_append, ih]
    cases literal (d :: cs) <;> simp

theorem lexFrom_quoted_of_not_mem {a : List Char} (ha : '\'' ∉ a) {X : List Char}
    (hX : X.head? ≠ some '\'') (s : List Char) :
    lexFrom (.quoted '\'' s) (a ++ '\'' :: X) =
      .text (String.ofList (s ++ a)) :: lexFrom (.plain []) X := by
  induction a generalizing s with
  | nil =>
    show lexFrom (.quoteSeen '\'' s) X = _
    rw [lexFrom_quoteSeen hX, List.append_nil]
  | cons c a ih =>
    have hc : c ≠ '\'' := fun hc => ha (by simp [hc])
    have hnext : next (.quoted '\'' s) c = ([], .quoted '\'' (s ++ [c])) := by simp [next, hc]
    rw [List.cons_append, lexFrom, hnext, List.nil_append,
      ih (fun hmem => ha (List.mem_cons_of_mem _ hmem)), List.append_assoc]
    rfl

/-- What follows a text and is no quote is not read as quotes. -/
theorem literal_ne_replicate {X : List Char} (hX : X.head? ≠ some '\'') (k : Nat) :
    literal X ≠ some (List.replicate k '\'') := by
  cases X with
  | nil => exact nofun
  | cons d X =>
    have hd : d ≠ '\'' := fun hd => hX (by rw [hd]; rfl)
    rw [literal_cons_of_ne hd]
    intro h
    obtain ⟨y, -, hy⟩ := Option.map_eq_some_iff.mp h
    exact hd (List.eq_of_mem_replicate (hy ▸ List.mem_cons_self))

/-- A text is never read with quotes before it, and as it stands only if it has no quote: every pair of
quotes that is read as one makes the value shorter, and the text that follows does not begin with the
quotes that would be needed. -/
theorem literal_eq_replicate_append_iff {X : List Char} (hX : X.head? ≠ some '\'') :
    ∀ (a : List Char) (k : Nat),
      literal (a ++ '\'' :: X) = some (List.replicate k '\'' ++ a) ↔ k = 0 ∧ '\'' ∉ a
  | [], k => by
    rw [List.nil_append, literal_quote hX]
    cases k <;> simp [List.replicate_succ]
  | [c], k => by
    by_cases hc : c = '\''
    · subst hc
      refine iff_of_false (fun h => ?_) (by simp)
      obtain ⟨z, hz, heq⟩ := Option.map_eq_some_iff.mp ((literal_quote_quote X).symm.trans h)
      rw [← List.replicate_succ', List.replicate_succ] at heq
      exact literal_ne_replicate hX k (hz.trans (congrArg some (List.cons.inj heq).2))
    · rw [List.singleton_append, literal_cons_of_ne hc, literal_quote hX]
      cases k <;> simp [List.replicate_succ, hc, Ne.symm hc]
  | c :: d :: a, k => by
    by_cases hc : c = '\''
    · subst hc
      refine iff_of_false (fun h => ?_) (by simp)
      by_cases hd : d = '\''
      · subst hd
        obtain ⟨z, hz, heq⟩ := Option.map_eq_some_iff.mp ((literal_quote_quote (a ++ '\'' :: X)).symm.trans h)
        rw [List.append_cons, ← List.replicate_succ', List.append_cons, ← List.replicate_succ',
          List.replicate_succ, List.cons_append] at heq
        have hmore := hz.trans (congrArg some (List.cons.inj heq).2)
        exact Nat.succ_ne_zero k ((literal_eq_replicate_append_iff hX a (k + 1)).mp hmore).1
      · have hhead : (d :: a ++ '\'' :: X).head? ≠ some '\'' := by simpa using hd
        have hempty := (literal_quote hhead).symm.trans h
        cases k <;> cases hempty
    · rw [List.cons_append, literal_cons_of_ne hc, Option.map_eq_some_iff]
      cases k with
      | succ k =>
        refine iff_of_false (fun ⟨z, _, heq⟩ => hc ?_) (by simp)
        rw [List.replicate_succ] at heq
        exact (List.cons.inj heq).1
      | zero =>
        have ih := literal_eq_replicate_append_iff hX (d :: a) 0
        simp only [List.replicate_zero, List.nil_append, true_and] at ih ⊢
        rw [List.mem_cons, not_or, and_iff_right (Ne.symm hc), ← ih]
        constructor
        · rintro ⟨z, hz, heq⟩
          rw [hz, (List.cons.inj heq).2]
        · exact fun h => ⟨_, h, rfl⟩

/-- A text put between quotes is read as it stands if and only if it has no quote. -/
theorem literal_eq_some_iff {X : List Char} (hX : X.head? ≠ some '\'') (a : List Char) :
    literal (a ++ '\'' :: X) = some a ↔ '\'' ∉ a :=
  (literal_eq_replicate_append_iff hX a 0).trans (and_iff_right rfl)

def LexState.chars : LexState → List Char
  | .quoted _ s | .quoteSeen _ s => s
  | _ => []

theorem start_chars (c : Char) : (start c).2.chars = [] ∧ ∀ s, .text s ∉ (start c).1 := by
  unfold start
  split_ifs <;> simp [LexState.chars]

theorem text_notMem_flush (w : List Char) (s : String) : .text s ∉ flush w := by
  unfold flush
  split <;> simp

theorem chars_of_text_eq_closed {q : Char} {s : String} {r : List Char} (h : .text s = closed q r) :
    s.toList = r := by
  unfold closed at h
  split at h <;> cases h
  exact String.toList_ofList

/-- A token made of a quoted text has the characters collected so far. -/
theorem text_mem_next {st : LexState} {c : Char} {s : String} (h : .text s ∈ (next st c).1) :
    s.toList = st.chars := by
  have hstart := (start_chars c).2
  cases st with
  | plain w =>
    simp only [next] at h
    split at h
    · cases h
    · rcases List.mem_append.mp h with h | h
      · exact absurd h (text_notMem_flush w s)
      · exact absurd h (hstart s)
  | quoteSeen q r =>
    simp only [next] at h
    split at h
    · cases h
    · rcases List.mem_cons.mp h with h | h
      · exact chars_of_text_eq_closed h
      · exact absurd h (hstart s)
  | quoted q r =>
    simp only [next] at h
    split at h <;> cases h
  | dash | slash =>
    simp only [next] at h
    split at h
    · cases h
    · rcases List.mem_cons.mp h with h | h
      · cases h
      · exact absurd h (hstart s)
  | lineComment | blockComment | blockStar => cases h

theorem chars_next (st : LexState) (c : Char) : ∀ x ∈ (next st c).2.chars, x ∈ st.chars ∨ x = c := by
  have hstart := (start_chars c).1
  cases st with
  | plain w | dash | slash =>
    simp only [next]
    split
    · simp [LexState.chars]
    · simp [hstart]
  | quoted q r =>
    simp only [next]
    split <;> simp +contextual [LexState.chars]
  | quoteSeen q r =>
    simp only [next]
    split
    · simp only [LexState.chars, List.mem_append, List.mem_singleton, imp_self, implies_true]
    · simp [hstart]
  | lineComment | blockComment | blockStar =>
    simp only [next]
    split_ifs <;> simp [LexState.chars]

theorem chars_of_text_mem_lexFrom {s : String} {cs : List Char} :
    ∀ {st : LexState}, .text s ∈ lexFrom st cs → ∀ x ∈ s.toList, x ∈ st.chars ∨ x ∈ cs := by
  induction cs with
  | nil =>
    intro st h x hx
    cases st with
    | plain w => exact absurd h (text_notMem_flush w s)
    | quoteSeen q r =>
      have hchars := chars_of_text_eq_closed (List.mem_singleton.mp h)
      exact .inl (hchars ▸ hx)
    | _ => simp [lexFrom, finish] at h
  | cons c cs ih =>
    intro st h x hx
    rw [lexFrom, List.mem_append] at h
    rcases h with h | h
    · exact .inl (text_mem_next h ▸ hx)
    · rcases ih h x hx with h | h
      · rcases chars_next st c x h with h | h
        · exact .inl h
        · exact .inr (by simp [h])
      · exact .inr (List.mem_cons_of_mem _ h)

/-- Every character of a quoted text stands in the SQL text. -/
theorem chars_of_text_mem_lex {s : String} {cs : List Char} (h : .text s ∈ lex cs) :
    ∀ x ∈ s.toList, x ∈ cs :=
  fun x hx => (chars_of_text_mem_lexFrom h x hx).resolve_left (by simp [LexState.chars])

/-! ## Splicing -/

/-- A text made of pieces of SQL, each followed by an argument in quotes. -/
def splice : List (List Char × List Char) → List Char → List Char
  | [], last => last
  | (sql, arg) :: ps, last => sql ++ '\'' :: (arg ++ '\'' :: splice ps last)

def spliceTokens : List (List Char × List Char) → List Char → List Token
  | [], last => lex last
  | (sql, arg) :: ps, last => lex sql ++ .text (String.ofList arg) :: spliceTokens ps last

theorem mem_splice {c : Char} {last : List Char} :
    ∀ {ps : List (List Char × List Char)}, c ∈ splice ps last →
      c = '\'' ∨ (∃ p ∈ ps, c ∈ p.1 ∨ c ∈ p.2) ∨ c ∈ last
  | [], h => .inr (.inr h)
  | (sql, arg) :: ps, h => by
    simp only [splice, List.mem_append, List.mem_cons] at h
    rcases h with h | h | h | h | h
    · exact .inr (.inl ⟨_, List.mem_cons_self, .inl h⟩)
    · exact .inl h
    · exact .inr (.inl ⟨_, List.mem_cons_self, .inr h⟩)
    · exact .inl h
    · rcases mem_splice h with h | ⟨p, hp, h⟩ | h
      · exact .inl h
      · exact .inr (.inl ⟨p, List.mem_cons_of_mem _ hp, h⟩)
      · exact .inr (.inr h)

theorem text_mem_spliceTokens {p : List Char × List Char} {last : List Char} :
    ∀ {ps : List (List Char × List Char)}, p ∈ ps → .text (String.ofList p.2) ∈ spliceTokens ps last
  | (sql, arg) :: ps, h => by
    rcases List.mem_cons.mp h with rfl | h
    · exact List.mem_append_right _ List.mem_cons_self
    · exact List.mem_append_right _ (List.mem_cons_of_mem _ (text_mem_spliceTokens h))

/-- The pieces are plain and no two arguments touch. -/
structure Pieces (ps : List (List Char × List Char)) (last : List Char) : Prop where
  plain : ∀ p ∈ ps, ∀ c ∈ p.1, isPlainChar c = true
  ne_nil : ∀ p ∈ ps, p.1 ≠ []
  last : ∀ c ∈ last, isPlainChar c = true

theorem Pieces.tail {p : List Char × List Char} {ps : List (List Char × List Char)}
    {last : List Char} (h : Pieces (p :: ps) last) : Pieces ps last :=
  ⟨fun q hq => h.plain q (List.mem_cons_of_mem _ hq), fun q hq => h.ne_nil q (List.mem_cons_of_mem _ hq),
    h.last⟩

theorem Pieces.head_splice {ps : List (List Char × List Char)} {last : List Char}
    (h : Pieces ps last) : (splice ps last).head? ≠ some '\'' := by
  have hquote : isPlainChar '\'' = false := rfl
  cases ps with
  | nil =>
    intro hq
    have := h.last '\'' (List.mem_of_mem_head? hq)
    simp [hquote] at this
  | cons p ps =>
    obtain ⟨sql, arg⟩ := p
    intro hq
    have hne := h.ne_nil _ List.mem_cons_self
    rw [splice, List.head?_append_of_ne_nil _ hne] at hq
    have := h.plain _ List.mem_cons_self '\'' (List.mem_of_mem_head? hq)
    simp [hquote] at this

/-- Splicing arguments into a statement keeps its meaning if and only if none has a quote. -/
theorem lex_splice_iff {ps : List (List Char × List Char)} {last : List Char} (h : Pieces ps last) :
    lex (splice ps last) = spliceTokens ps last ↔ ∀ p ∈ ps, '\'' ∉ p.2 := by
  induction ps with
  | nil => simp [splice, spliceTokens]
  | cons p ps ih =>
    obtain ⟨sql, arg⟩ := p
    have hX := h.tail.head_splice
    have hstart : lex (splice ((sql, arg) :: ps) last) =
        lex sql ++ lexFrom (.quoted '\'' []) (arg ++ '\'' :: splice ps last) :=
      lexFrom_plain_quote (h.plain _ List.mem_cons_self) [] _
    rw [hstart, spliceTokens, List.append_cancel_left_eq, List.forall_mem_cons, ← ih h.tail]
    constructor
    · intro heq
      have hhead := lexFrom_quoted [] (arg ++ '\'' :: splice ps last)
      rw [heq, List.head?_cons] at hhead
      have hlit : literal (arg ++ '\'' :: splice ps last) = some arg := by
        cases hl : literal (arg ++ '\'' :: splice ps last) with
        | none => simp [hl] at hhead
        | some z => simpa [hl, String.ofList_inj] using hhead.symm
      have harg := (literal_eq_some_iff hX arg).mp hlit
      rw [lexFrom_quoted_of_not_mem harg hX, List.nil_append] at heq
      exact ⟨harg, (List.cons.inj heq).2⟩
    · rintro ⟨harg, hrest⟩
      rw [lexFrom_quoted_of_not_mem harg hX, List.nil_append]
      exact congrArg _ hrest

end Nas.Lib.Sql
