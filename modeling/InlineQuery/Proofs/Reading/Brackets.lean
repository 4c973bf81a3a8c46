/-
Where the text of a value ends.

A value is read chunk by chunk, with a count of the brackets that are open. It
ends at the first `]]`, `|` or `||` that does not stand inside of brackets opened
in the value (`EndsValue`), or with the query; its text is that of the chunks in
front of that, blanks between them apart, and what is left of the query begins
right behind it (`readValue_keeps_brackets`).

# What the count says

Brackets are spoken of here as in a grammar, not by counting them: the chunks
between two brackets that belong together are balanced (`Balanced`). The count is
one more than the number of brackets that are open behind the chunks so far
(`Opens`), so that none is open just where the count is one, and this is kept by
every step (`Opens.step`).

# Chunks and pieces of text

The brackets that belong together are chunks of the query. In the text of the
value they can no longer be told apart from others: where a blank stood between a
single bracket and a pair of them, it is gone, so that `[ [[a]]` is the value
`[[[a]]`.
-/
import InlineQuery.Proofs.Reading.Classification
import InlineQuery.Proofs.Reading.Conservation
import InlineQuery.Reader.Value

namespace InlineQuery

-- ============================================================ balanced brackets

theorem closing_ne_opening : ([']', ']'] : Text) ≠ ['[', '['] := by decide

/-- The brackets in the chunks are opened and closed in them. -/
inductive Balanced : List Text → Prop
  | nil : Balanced []
  | plain {chunk : Text} {chunks : List Text} (notOpening : chunk ≠ ['[', '['])
    (notClosing : chunk ≠ [']', ']']) (behind : Balanced chunks) : Balanced (chunk :: chunks)
  | pair {inside behind : List Text} (balanced : Balanced inside) (rest : Balanced behind) :
    Balanced (['[', '['] :: (inside ++ [']', ']'] :: behind))

/-- Behind the chunks there is a bracket to be closed. -/
def Enclosed (chunks : List Text) : Prop :=
  ∃ outside inside, chunks = outside ++ ['[', '['] :: inside ∧ Balanced inside

/-- So many brackets are to be closed behind the chunks. -/
inductive Opens : Nat → List Text → Prop
  | balanced {chunks : List Text} (h : Balanced chunks) : Opens 0 chunks
  | bracket {n : Nat} {outside inside : List Text} (opens : Opens n outside)
    (balanced : Balanced inside) : Opens (n + 1) (outside ++ ['[', '['] :: inside)

namespace Balanced

variable {chunks others front : List Text}

theorem append (h : Balanced chunks) (h' : Balanced others) : Balanced (chunks ++ others) := by
  induction h with
  | nil => exact h'
  | plain notOpening notClosing _ ih => exact .plain notOpening notClosing ih
  | pair balanced _ _ ih =>
    rw [List.cons_append, List.append_assoc, List.cons_append]
    exact .pair balanced ih

theorem count_closing (h : Balanced chunks) :
    chunks.count [']', ']'] = chunks.count ['[', '['] := by
  induction h with
  | nil => rfl
  | plain notOpening notClosing _ ih =>
    rw [List.count_cons_of_ne notOpening, List.count_cons_of_ne notClosing, ih]
  | pair _ _ ihInside ihBehind =>
    rw [List.count_cons_of_ne closing_ne_opening.symm, List.count_append, List.count_cons_self,
      List.count_cons_self, List.count_append, List.count_cons_of_ne closing_ne_opening, ihInside,
      ihBehind]
    omega

/-- Nothing is closed that was not opened before. -/
theorem count_closing_le (h : Balanced chunks) (hfront : front <+: chunks) :
    front.count [']', ']'] ≤ front.count ['[', '['] := by
  induction h generalizing front with
  | nil =>
    rw [List.prefix_nil.1 hfront]
    exact Nat.le_refl _
  | plain notOpening notClosing _ ih =>
    rcases List.prefix_cons_iff.1 hfront with rfl | ⟨behind, rfl, hbehind⟩
    · exact Nat.le_refl _
    · rw [List.count_cons_of_ne notOpening, List.count_cons_of_ne notClosing]
      exact ih hbehind
  | @pair inside behind balanced _ ihInside ihBehind =>
    have hcount := balanced.count_closing
    -- it ends in front of the brackets, in them, or behind them
    rcases List.prefix_cons_iff.1 hfront with rfl | ⟨first, rfl, hfirst⟩
    · exact Nat.le_refl _
    · rw [List.count_cons_of_ne closing_ne_opening.symm, List.count_cons_self]
      rcases List.prefix_or_prefix_of_prefix hfirst (List.prefix_append inside _) with
        hinside | ⟨second, rfl⟩
      · exact Nat.le_succ_of_le (ihInside hinside)
      · rw [List.count_append, List.count_append]
        rcases List.prefix_cons_iff.1 ((List.prefix_append_right_inj inside).1 hfirst) with
          rfl | ⟨third, rfl, hthird⟩
        · rw [List.count_nil, List.count_nil]
          omega
        · have hbehind := ihBehind hthird
          rw [List.count_cons_self, List.count_cons_of_ne closing_ne_opening]
          omega

/-- Where all brackets are closed, none is to be closed. -/
theorem not_enclosed (h : Balanced chunks) : ¬ Enclosed chunks := by
  rintro ⟨outside, inside, rfl, hinside⟩
  have hall := h.count_closing
  have hfront := h.count_closing_le (List.prefix_append outside _)
  have hcount := hinside.count_closing
  rw [List.count_append, List.count_append, List.count_cons_self,
    List.count_cons_of_ne closing_ne_opening.symm] at hall
  omega

end Balanced

namespace Opens

variable {n : Nat} {chunks others : List Text} {chunk : Text}

theorem append (h : Opens n chunks) (h' : Balanced others) : Opens n (chunks ++ others) := by
  cases h with
  | balanced h => exact .balanced (h.append h')
  | bracket opens balanced =>
    rw [List.append_assoc, List.cons_append]
    exact .bracket opens (balanced.append h')

theorem plain (h : Opens n chunks) (notOpening : chunk ≠ ['[', '['])
    (notClosing : chunk ≠ [']', ']']) : Opens n (chunks ++ [chunk]) :=
  h.append (.plain notOpening notClosing .nil)

theorem opening (h : Opens n chunks) : Opens (n + 1) (chunks ++ [['[', '[']]) := .bracket h .nil

theorem closing (h : Opens (n + 1) chunks) : Opens n (chunks ++ [[']', ']']]) := by
  cases h with
  | bracket opens balanced =>
    rw [List.append_assoc, List.cons_append]
    exact opens.append (.pair balanced .nil)

theorem enclosed (h : Opens (n + 1) chunks) : Enclosed chunks := by
  cases h with
  | bracket opens balanced => exact ⟨_, _, rfl, balanced⟩

theorem isBalanced (h : Opens 0 chunks) : Balanced chunks := by
  cases h with
  | balanced h => exact h

end Opens

-- ================================================================== the step

/-- The chunk ends a value that has had the chunks before it: it is `]]`, `|` or
`||`, and does not stand in brackets. -/
structure EndsValue (before : List Text) (chunk : Text) : Prop where
  mem : chunk ∈ ([[']', ']'], ['|', '|'], ['|']] : List Text)
  outside : ¬ Enclosed before

theorem EndsValue.mem_anywhere {before : List Text} {chunk : Text} (h : EndsValue before chunk) :
    chunk ∈ StopSet.atomContent.anywhere := List.mem_cons_of_mem _ h.mem

namespace Reader

/-- What one more chunk does where `n` brackets are open: there is none; or it
ends the value, and no bracket is open; or the value goes on, and the count is
right behind the chunk, too. -/
inductive CountsChunk (n : Nat) (before : List Text) (chunk : Text) : Prop
  | finish (empty : chunk = []) (count : bracketsAfter (n + 1) chunk = 0)
  | ends (h : EndsValue before chunk) (closed : n = 0) (count : bracketsAfter (n + 1) chunk = 0)
  | continues {m : Nat} (ne_nil : chunk ≠ []) (h : ¬ EndsValue before chunk)
    (count : bracketsAfter (n + 1) chunk = m + 1) (opens : Opens m (before ++ [chunk]))

variable {n : Nat} {before : List Text} {chunk : Text}

/-- A bar ends a value outside of brackets, and is part of it inside. -/
theorem countsChunk_bar (h : Opens n before) (hbar : chunk ∈ ([['|', '|'], ['|']] : List Text)) :
    CountsChunk n before chunk := by
  have hcount : bracketsAfter (n + 1) chunk = if n + 1 = 1 then 0 else n + 1 := by
    simp only [List.mem_cons, List.not_mem_nil, or_false] at hbar
    rcases hbar with rfl | rfl <;> rfl
  have hall : ([['|', '|'], ['|']] : List Text).all (fun chunk =>
      decide (chunk ≠ [] ∧ chunk ≠ ['[', '['] ∧ chunk ≠ [']', ']'])) = true := by
    decide
  obtain ⟨hne, hopening, hclosing⟩ := of_decide_eq_true (List.all_eq_true.1 hall chunk hbar)
  cases n with
  | zero => exact .ends ⟨List.mem_cons_of_mem _ hbar, h.isBalanced.not_enclosed⟩ rfl hcount
  | succ n =>
    refine .continues hne (fun hends => hends.outside h.enclosed) ?_ (h.plain hopening hclosing)
    rw [hcount, if_neg (by omega)]

/-- Any other chunk is part of the value. -/
theorem countsChunk_plain (h : Opens n before) (hcount : bracketsAfter (n + 1) chunk = n + 1)
    (hother : chunk ∉ ([[], ['[', '['], [']', ']'], ['|', '|'], ['|']] : List Text)) :
    CountsChunk n before chunk := by
  simp only [List.mem_cons, List.not_mem_nil, or_false, not_or] at hother
  obtain ⟨hne, hopening, hclosing, hbars, hbar⟩ := hother
  refine .continues hne (fun hends => ?_) hcount (h.plain hopening hclosing)
  simpa [hclosing, hbars, hbar] using hends.mem

/-- **The count is right.** -/
theorem countsChunk (h : Opens n before) (chunk : Text) : CountsChunk n before chunk := by
  have hspells := Token.spells_ofChunk chunk
  have hplain (hcount : bracketsAfter (n + 1) chunk = n + 1)
      (hother : Token.ofChunk chunk ∉ [.finish, .openAtom, .closeAtom, .bars, .bar]) :
      CountsChunk n before chunk := by
    refine countsChunk_plain h hcount fun hmem => hother ?_
    have hall : ([[], ['[', '['], [']', ']'], ['|', '|'], ['|']] : List Text).all (fun chunk =>
        decide (Token.ofChunk chunk ∈ [.finish, .openAtom, .closeAtom, .bars, .bar])) = true := by
      decide
    exact of_decide_eq_true (List.all_eq_true.1 hall chunk hmem)
  cases htoken : Token.ofChunk chunk <;> rw [htoken] at hspells hplain
  case finish => exact .finish hspells (by rw [show chunk = [] from hspells]; rfl)
  case openAtom =>
    obtain rfl : chunk = ['[', '['] := hspells
    exact .continues (by decide) (fun hends => absurd hends.mem (by decide)) rfl h.opening
  case closeAtom =>
    obtain rfl : chunk = [']', ']'] := hspells
    cases n with
    | zero => exact .ends ⟨by decide, h.isBalanced.not_enclosed⟩ rfl rfl
    | succ n =>
      exact .continues (by decide) (fun hends => hends.outside h.enclosed) rfl h.closing
  case bars => exact countsChunk_bar h (List.mem_cons.2 (.inl hspells))
  case bar => exact countsChunk_bar h (List.mem_cons_of_mem _ (List.mem_singleton.2 hspells))
  all_goals exact hplain (by simp [bracketsAfter, htoken]) (by decide)

end Reader

-- ================================================================== the chunks

/-- The chunk is a bracket or a bar, or there is none in it. -/
def IsContentChunk (chunk : Text) : Prop :=
  chunk ∈ StopSet.atomContent.anywhere ∨ ∀ mark ∈ StopSet.atomContent.anywhere, ¬ mark <:+: chunk

/-- How the text inside of an atom is read. -/
def contentRead : ChunkRead := ⟨.atomContent, true⟩

namespace StopSet

variable {labels : ClassLabels} {t mark : Text}

/-- Brackets and bars are written in one way, without blanks. -/
theorem of_mem_atomContent (h : mark ∈ StopSet.atomContent.anywhere) :
    mark.all isCaseless = true ∧ Text.trim mark = mark ∧ mark ≠ [] ∧
      (∀ c ∈ mark.head?, isBlank c = false) ∧ matchFront? mark mark = some (mark, []) := by
  have hall : StopSet.atomContent.anywhere.all (fun mark => decide (mark.all isCaseless = true ∧
      Text.trim mark = mark ∧ mark ≠ [] ∧ mark.head?.all (!isBlank ·) = true ∧
        matchFront? mark mark = some (mark, []))) = true := by
    decide +kernel
  obtain ⟨hcaseless, htrim, hne, hhead, hmatch⟩ :=
    of_decide_eq_true (List.all_eq_true.1 hall mark h)
  refine ⟨hcaseless, htrim, hne, fun c hc => ?_, hmatch⟩
  rw [Option.mem_def.1 hc] at hhead
  simpa using hhead

/-- A bracket or a bar is found wherever a text begins with one, blanks apart. -/
theorem delimiter?_atomContent (labels : ClassLabels) (t : Text) :
    StopSet.atomContent.delimiter? labels true t =
      firstDelimiter? StopSet.atomContent.anywhere (Text.trimFront t) := by
  cases hfound : firstDelimiter? StopSet.atomContent.anywhere (Text.trimFront t) with
  | none =>
    rw [delimiter?_leading hfound]
    rfl
  | some found => exact delimiter?_of_anywhere hfound rfl true

/-- There is no bracket and no bar in the text in front of the first one. -/
theorem not_isInfix_splitBefore (labels : ClassLabels) (t : Text)
    (hmark : mark ∈ StopSet.atomContent.anywhere) :
    ¬ mark <:+: (StopSet.atomContent.splitBefore labels t).1 := by
  rintro ⟨front, back, happend⟩
  obtain ⟨-, -, hne, hhead, hmatch⟩ := of_mem_atomContent hmark
  obtain ⟨k, hnone⟩ := firstDelimiter?_piece happend hne hhead
  have hfound := List.findSome?_eq_none_iff.1 hnone mark hmark
  rw [matchFront?_append hmatch] at hfound
  cases hfound

/-- A chunk is a bracket or a bar that the text begins with, blanks apart; or there
is none in it. -/
theorem cut_atomContent_cases (labels : ClassLabels) (t : Text) :
    let cut := contentRead.cut labels t
    (cut.chunk ∈ StopSet.atomContent.anywhere ∧
        ∃ blanks, Text.isBlankText blanks = true ∧ blanks ++ cut.chunk ++ cut.rest = t) ∨
      ∀ mark ∈ StopSet.atomContent.anywhere, ¬ mark <:+: cut.chunk := by
  intro cut
  have hcut : cut = (StopSet.atomContent.cut labels t).trimmed := rfl
  cases hfound : StopSet.atomContent.delimiter? labels true t with
  | some parts =>
    obtain ⟨found, rest⟩ := parts
    have hcut : cut = ⟨Text.trim found, rest⟩ := by
      rw [hcut, StopSet.cut, hfound]
      rfl
    obtain ⟨blanks, hblanks, happend⟩ := append_of_delimiter? hfound
    rw [delimiter?_atomContent] at hfound
    obtain ⟨mark, hmark, hmatch⟩ := List.exists_of_findSome?_eq_some hfound
    obtain ⟨hcaseless, htrim, -⟩ := of_mem_atomContent hmark
    obtain rfl : found = mark := fst_of_matchFront? hcaseless hmatch
    rw [hcut, htrim]
    exact .inl ⟨hmark, blanks, hblanks, happend⟩
  | none =>
    right
    intro mark hmark hpiece
    have hchunk : cut.chunk = Text.trim (StopSet.atomContent.splitBefore labels t).1 := by
      rw [hcut, StopSet.cut, hfound]
      rfl
    obtain ⟨front, back, -, -, happend⟩ :=
      Text.trim_append (StopSet.atomContent.splitBefore labels t).1
    rw [hchunk] at hpiece
    exact not_isInfix_splitBefore labels t hmark (hpiece.trans ⟨front, back, happend⟩)

/-- A chunk that is a bracket or a bar stands in the text behind blanks. -/
theorem exists_of_chunk_mem
    (h : (contentRead.cut labels t).chunk ∈ StopSet.atomContent.anywhere) :
    ∃ blanks, Text.isBlankText blanks = true ∧
      blanks ++ (contentRead.cut labels t).chunk ++ (contentRead.cut labels t).rest = t := by
  rcases cut_atomContent_cases labels t with ⟨-, hplace⟩ | hnone
  · exact hplace
  · exact absurd List.infix_rfl (hnone _ h)

end StopSet

-- =================================================================== the run

namespace Reader

/-- How a value goes on behind the chunks `before` of it: the chunks `inside` are
read, none of which ends it, and then the chunk that does. -/
structure ReadsValue (labels : ClassLabels) (before : List Text) (value t : Text)
    (inside : List Text) (v : ValueText) : Prop where
  /-- The chunks are read one after another, and the last one is what ended the
  value. -/
  reads : cutAll labels (List.replicate (inside.length + 1) contentRead) t =
    (inside ++ [v.terminator], v.rest)
  chunks : ∀ chunk ∈ inside, IsContentChunk chunk
  continues : ∀ front chunk behind, inside = front ++ chunk :: behind →
    chunk ≠ [] ∧ ¬ EndsValue (before ++ front) chunk
  ends : EndsValue (before ++ inside) v.terminator ∧ Balanced (before ++ inside) ∨
    v.terminator = [] ∧ v.rest = []
  value : v.value = value ++ inside.flatten
  /-- What is read of the text has the visible characters of the chunks inside, up
  to the chunk that ended the value. -/
  consumes : ∃ consumed, consumed ++ v.terminator ++ v.rest = t ∧
    Text.visible consumed = Text.visible inside.flatten

variable {labels : ClassLabels} {before inside : List Text} {value t : Text} {n : Nat}

/-- The chunk that ends a value, or the end of the query. -/
theorem ReadsValue.nil {blanks : Text} (hblanks : Text.isBlankText blanks = true)
    (happend : blanks ++ (contentRead.cut labels t).chunk ++ (contentRead.cut labels t).rest = t)
    (hends : EndsValue before (contentRead.cut labels t).chunk ∧ Balanced before ∨
      (contentRead.cut labels t).chunk = [] ∧ (contentRead.cut labels t).rest = []) :
    ReadsValue labels before value t []
      ⟨value, (contentRead.cut labels t).chunk, (contentRead.cut labels t).rest⟩ where
  reads := rfl
  chunks _ hmem := absurd hmem List.not_mem_nil
  continues front chunk behind heq :=
    absurd heq.symm (List.append_ne_nil_of_right_ne_nil front (List.cons_ne_nil chunk behind))
  ends := by rwa [List.append_nil]
  value := (List.append_nil value).symm
  consumes := ⟨blanks, happend, Text.visible_eq_nil_iff.2 hblanks⟩

/-- A chunk in front of the others. -/
theorem ReadsValue.cons {v : ValueText}
    (h : ReadsValue labels (before ++ [(contentRead.cut labels t).chunk])
      (value ++ (contentRead.cut labels t).chunk) (contentRead.cut labels t).rest inside v)
    (hne : (contentRead.cut labels t).chunk ≠ [])
    (hcontinues : ¬ EndsValue before (contentRead.cut labels t).chunk) :
    ReadsValue labels before value t ((contentRead.cut labels t).chunk :: inside) v where
  reads := by
    rw [List.length_cons, List.replicate_succ, cutAll, h.reads]
    rfl
  chunks := by
    refine List.forall_mem_cons.2 ⟨?_, h.chunks⟩
    exact (StopSet.cut_atomContent_cases labels t).imp_left And.left
  continues front chunk behind heq := by
    rcases List.cons_eq_append_iff.1 heq with ⟨rfl, hbehind⟩ | ⟨front, rfl, hinside⟩
    · obtain ⟨rfl, -⟩ := List.cons.inj hbehind
      rw [List.append_nil]
      exact ⟨hne, hcontinues⟩
    · have hlater := h.continues front chunk behind hinside
      rwa [List.append_assoc, List.singleton_append] at hlater
  ends := by
    have hends := h.ends
    rwa [List.append_assoc, List.singleton_append] at hends
  value := by rw [h.value, List.append_assoc, List.flatten_cons]
  consumes := by
    obtain ⟨removed, hremoved, hvisible⟩ := contentRead.removes_cut labels t
    obtain ⟨consumed, happend, hconsumed⟩ := h.consumes
    refine ⟨removed ++ consumed, ?_, ?_⟩
    · rw [← hremoved, ← happend]
      simp only [List.append_assoc]
    · rw [Text.visible_append, hvisible, hconsumed, ← Text.visible_append, List.flatten_cons]

theorem exists_readsValue (labels : ClassLabels) (openBrackets : Nat) (value t : Text) :
    ∀ n before, openBrackets = n + 1 → Opens n before →
      ∃ inside, ReadsValue labels before value t inside
        (readValueFrom labels openBrackets value t) := by
  -- over the chunks that are read, with the chunks before as they come: what is
  -- carried along is that the count is right behind them
  fun_induction readValueFrom labels openBrackets value t with
  | case1 openBrackets value t cut stillOpen hend =>
    rintro n before rfl h
    refine ⟨[], ?_⟩
    cases countsChunk h cut.chunk with
    | finish empty =>
      obtain ⟨hblank, hrest⟩ := StopSet.isBlankText_of_cut (Text.trim_eq_nil_iff.1 empty)
      refine ReadsValue.nil hblank ?_ (.inr ⟨empty, hrest⟩)
      rw [show (contentRead.cut labels t).chunk = [] from empty,
        show (contentRead.cut labels t).rest = [] from hrest, List.append_nil, List.append_nil]
    | ends hends closed =>
      subst closed
      obtain ⟨blanks, hblanks, happend⟩ := StopSet.exists_of_chunk_mem hends.mem_anywhere
      exact ReadsValue.nil hblanks happend (.inl ⟨hends, h.isBalanced⟩)
    | continues _ _ count => exact absurd (count.symm.trans hend) (Nat.succ_ne_zero _)
  | case2 openBrackets value t cut stillOpen hmore ih =>
    rintro n before rfl h
    cases countsChunk h cut.chunk with
    | finish _ count => exact absurd count hmore
    | ends _ _ count => exact absurd count hmore
    | continues ne_nil continues count opens =>
      obtain ⟨inside, hread⟩ := ih _ _ count opens
      exact ⟨cut.chunk :: inside, hread.cons ne_nil continues⟩

/-- A chunk inside of a value that has a bar in it stands in brackets. -/
theorem ReadsValue.enclosed {v : ValueText} (h : ReadsValue labels [] value t inside v)
    {front behind : List Text} {chunk : Text} (hinside : inside = front ++ chunk :: behind)
    (hbar : '|' ∈ chunk) : Enclosed front := by
  have hmem : chunk ∈ inside := by
    rw [hinside]
    exact List.mem_append_right front List.mem_cons_self
  have hends : chunk ∈ ([[']', ']'], ['|', '|'], ['|']] : List Text) := by
    rcases h.chunks chunk hmem with hmark | hnone
    · have hall : StopSet.atomContent.anywhere.all (fun chunk => decide ('|' ∈ chunk →
          chunk ∈ ([[']', ']'], ['|', '|'], ['|']] : List Text))) = true := by
        decide
      exact of_decide_eq_true (List.all_eq_true.1 hall chunk hmark) hbar
    · obtain ⟨first, last, rfl⟩ := List.append_of_mem hbar
      exact absurd ⟨first, last, by simp⟩ (hnone ['|'] (by decide))
  exact Classical.not_not.1 fun houtside =>
    (h.continues front chunk behind hinside).2 ⟨hends, houtside⟩

/-- **A value keeps balanced brackets.** Whatever the first chunk of a value and
the text behind it, the value ends at the first `]]`, `|` or `||` that does not
stand in brackets opened behind the first chunk, or with the text; it has the
visible characters of the text up to there; and if the text is not at its end,
the brackets in between are balanced and all bars stand in brackets. -/
theorem readValue_keeps_brackets (labels : ClassLabels) (first t : Text) :
    ∃ inside, ReadsValue labels [] first t inside (readValue labels first t) ∧
      ((readValue labels first t).terminator ≠ [] → Balanced inside ∧
        ∀ front chunk behind, inside = front ++ chunk :: behind → '|' ∈ chunk →
          Enclosed front) := by
  obtain ⟨inside, hread⟩ := exists_readsValue labels 1 first t 0 [] rfl (.balanced .nil)
  refine ⟨inside, hread, fun hne => ⟨?_, fun front chunk behind => hread.enclosed⟩⟩
  rcases hread.ends with ⟨-, hbalanced⟩ | ⟨hnil, -⟩
  · exact hbalanced
  · exact absurd hnil hne

/-- The bar in brackets is part of the value, the one behind them ends it. -/
theorem readValue_keeps_nested_bar :
    readValue ⟨"Kategorie".toList, "Konzept".toList⟩ "x".toList "[[|]] |c".toList =
        ⟨"x[[|]]".toList, ['|'], ['c']⟩ ∧
      ∃ inside, ReadsValue ⟨"Kategorie".toList, "Konzept".toList⟩ [] "x".toList
        "[[|]] |c".toList inside ⟨"x[[|]]".toList, ['|'], ['c']⟩ ∧ Balanced inside := by
  have hread : readValue ⟨"Kategorie".toList, "Konzept".toList⟩ "x".toList "[[|]] |c".toList =
      ⟨"x[[|]]".toList, ['|'], ['c']⟩ := by
    rw [readValue, readValueFrom]
    show readValueFrom _ 2 "x[[".toList "|]] |c".toList = _
    rw [readValueFrom]
    show readValueFrom _ 2 "x[[|".toList "]] |c".toList = _
    rw [readValueFrom]
    show readValueFrom _ 1 "x[[|]]".toList " |c".toList = _
    rw [readValueFrom]
    rfl
  obtain ⟨inside, hinside, hbalanced⟩ := readValue_keeps_brackets
    ⟨"Kategorie".toList, "Konzept".toList⟩ "x".toList "[[|]] |c".toList
  rw [hread] at hinside hbalanced
  exact ⟨hread, inside, hinside, (hbalanced (List.cons_ne_nil _ _)).1⟩

end Reader

end InlineQuery
