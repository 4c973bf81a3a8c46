/-
Which pages are read back.

A page is written as its title, with the name of its namespace and a colon in
front of it if the namespace has a name. What is read from that need not be the
page again: a colon at the very beginning does not count, and any other text in
front of the first colon is taken for a namespace if there is one of that name.

# Colons

Normalizing a title leaves the colons in it (`count_colon_normalizeTitle?`). So a
title that has been taken apart at another colon has too many of them or too few,
and the page is another one. This is what makes the conditions exact under which a
page is read back (`page?_fullTitle_iff`).
-/
import InlineQuery.Proofs.Reading.Namespaces
import InlineQuery.Proofs.Titles.Spelling

namespace InlineQuery

open CaseRun

-- ================================================================== trimming

namespace Text

theorem getLast?_trimBack (t : Text) : ∀ c ∈ (trimBack t).getLast?, isBlank c = false := by
  induction t with
  | nil => exact fun c hc => nomatch hc
  | cons d t ih =>
    rw [trimBack]
    cases htrimmed : trimBack t with
    | nil =>
      by_cases hd : isBlank d = true <;> simp [hd]
    | cons e u =>
      rw [htrimmed] at ih
      intro c hc
      rw [List.getLast?_cons_cons] at hc
      exact ih c hc

theorem head?_trimFront (t : Text) : ∀ c ∈ (trimFront t).head?, isBlank c = false := by
  intro c hc
  have hfirst := List.head?_dropWhile_not isBlank t
  rw [show t.dropWhile isBlank = trimFront t from rfl, Option.mem_def.1 hc] at hfirst
  simpa using hfirst

theorem head?_trim (t : Text) : ∀ c ∈ (trim t).head?, isBlank c = false := by
  intro c hc
  obtain ⟨behind, hbehind⟩ := trimBack_isPrefix (trimFront t)
  refine head?_trimFront t c ?_
  rw [← hbehind, List.head?_append, show trimBack (trimFront t) = trim t from rfl,
    Option.mem_def.1 hc]
  rfl

theorem trim_trim (t : Text) : trim (trim t) = trim t :=
  trim_eq_self (head?_trim t) (getLast?_trimBack (trimFront t))

/-- Blanks are only taken off the front of a text that does not end with one. -/
theorem trim_of_getLast? {t : Text} (h : ∀ c ∈ t.getLast?, isBlank c = false) :
    trim t = trimFront t := by
  have hlast : ∀ c ∈ (trimFront t).getLast?, isBlank c = false := by
    obtain ⟨front, hfront⟩ := List.dropWhile_suffix isBlank (l := t)
    intro c hc
    refine h c ?_
    rw [← hfront, List.getLast?_append, show t.dropWhile isBlank = trimFront t from rfl,
      Option.mem_def.1 hc]
    rfl
  have hself := trim_eq_self (head?_trimFront t) hlast
  rwa [trim, trimFront_trimFront] at hself

-- ==================================================================== colons

theorem flatten_words (t : Text) : (words t).flatten = t.filter fun c => !isBlank c := by
  induction t with
  | nil => rfl
  | cons c t ih =>
    unfold words
    by_cases hc : isBlank c = true
    · rw [if_pos hc, ih, List.filter_cons_of_neg (by simp [hc])]
    · rw [if_neg hc, List.filter_cons_of_pos (by simp [hc]), ← ih]
      split
      · next hwords =>
        rw [hwords]
        split <;> rfl
      · rfl

theorem count_join {c : Char} (hc : c ≠ ' ') (ws : List Text) :
    (join [' '] ws).count c = ws.flatten.count c := by
  induction ws with
  | nil => rfl
  | cons w ws ih =>
    cases ws with
    | nil => rw [join, List.flatten_singleton]
    | cons u ws =>
      have hspace : [' '].count c = 0 := List.count_eq_zero.2 fun h => hc (List.mem_singleton.1 h)
      rw [join, List.count_append, List.count_append, ih, hspace, Nat.add_zero]
      exact List.count_append.symm

theorem count_replace {a b c : Char} (ha : a ≠ c) (hb : b ≠ c) (t : Text) :
    (replace a b t).count c = t.count c := by
  induction t with
  | nil => rfl
  | cons d t ih =>
    show ((if d = a then b else d) :: replace a b t).count c = (d :: t).count c
    rw [List.count_cons, List.count_cons, ih]
    by_cases hd : d = a
    · rw [if_pos hd, hd, beq_false_of_ne ha, beq_false_of_ne hb]
    · rw [if_neg hd]

end Text

/-- No character but the colon has one in its upper case. -/
theorem count_colon_upperCase (c : Char) : (upperCase c).count ':' = [c].count ':' := by
  by_cases hc : c = ':'
  · rw [hc]
    decide +kernel
  · have hnot : ':' ∉ upperCase c := fun hmem => hc ((mem_upperCase_iff (by decide +kernel)).1 hmem)
    rw [List.count_eq_zero.2 hnot, List.count_eq_zero.2]
    exact fun hmem => hc (List.mem_singleton.1 hmem).symm

theorem count_colon_normalizeTitle? {capital : Bool} {t s : Text}
    (h : normalizeTitle? capital t = some s) : s.count ':' = t.count ':' := by
  have hspaced : (spaceTitle t).count ':' = t.count ':' := by
    rw [spaceTitle, Text.count_join (by decide), Text.flatten_words, List.count_filter (by decide),
      Text.count_replace (by decide) (by decide)]
  have hcapital (t : Text) : (capitalize t).count ':' = t.count ':' := by
    cases t with
    | nil => rfl
    | cons c t =>
      rw [capitalize, List.count_append, count_colon_upperCase, ← List.count_append]
      rfl
  rw [normalizeTitle?] at h
  split at h
  · cases h
  · rw [← Option.some.inj h, ← hspaced]
    split
    · exact hcapital _
    · rfl

-- ============================================================ reading pages

namespace Text

/-- A text without the colon that it begins with. -/
def dropColon : Text → Text
  | ':' :: rest => rest
  | t => t

theorem dropColon_of_ne {c : Char} (h : c ≠ ':') (t : Text) : dropColon (c :: t) = c :: t := by
  unfold dropColon
  split
  · next heq => exact absurd (List.cons.inj heq).1 h
  · rfl

theorem dropColon_append {t : Text} (h : t ≠ []) (k : Text) :
    dropColon (t ++ k) = dropColon t ++ k := by
  obtain ⟨c, rest, rfl⟩ := List.exists_cons_of_ne_nil h
  by_cases hc : c = ':'
  · rw [hc]
    rfl
  · rw [List.cons_append, dropColon_of_ne hc, dropColon_of_ne hc, List.cons_append]

/-- What of a text names a page: all but a leading colon, and the blanks at the
ends. -/
def afterColon (t : Text) : Text := dropColon (trim t)

theorem afterColon_trim (t : Text) : afterColon (trim t) = afterColon t := by
  rw [afterColon, trim_trim, afterColon]

end Text

/-- How a page is named by a text: by its title alone, or by a title behind the
name of a namespace. -/
inductive Config.Names (config : Config) (t : Text) : Page → Prop
  | main {title : Text} :
      (∀ parts ∈ Text.splitOnce? ':' t,
        Text.trim parts.1 = [] ∨ config.namespaceId? parts.1 = none) →
      normalizeTitle? config.capitalLinks t = some title →
      config.Names t ⟨NamespaceId.main, [], title⟩
  | inNamespace {front rest label title : Text} {id : NamespaceId} :
      Text.splitOnce? ':' t = some (front, rest) → Text.trim front ≠ [] →
      config.namespaceId? front = some id → config.namespaceName? id = some label →
      normalizeTitle? config.capitalLinks rest = some title →
      config.Names t ⟨id, label, title⟩

/-- A namespace that has a number has a name. -/
theorem Config.exists_namespaceName? {config : Config} {name : Text} {id : NamespaceId}
    (h : config.namespaceId? name = some id) : ∃ label, config.namespaceName? id = some label := by
  unfold Config.namespaceId? at h
  dsimp only at h
  obtain ⟨entry, hentry, hnamed⟩ := List.exists_of_findSome?_eq_some h
  have hid : entry.2 = id := by
    split at hnamed
    · exact Option.some.inj hnamed
    · cases hnamed
  have hother : ∃ other ∈ (config.categoryLabel, NamespaceId.category) ::
      (config.conceptLabel, NamespaceId.concept) :: config.namespaces ++ canonicalNamespaces,
      other.2 = id := by
    simp only [List.cons_append, List.mem_cons, List.mem_append] at hentry ⊢
    rcases hentry with rfl | rfl | rfl | hentry | hentry
    · exact ⟨_, .inl rfl, hid⟩
    · exact ⟨_, .inr (.inl rfl), hid⟩
    · -- the main namespace has another name than `Main`, which is empty
      exact ⟨([], NamespaceId.main), .inr (.inr (.inr (by decide))), hid⟩
    · exact ⟨entry, .inr (.inr (.inl hentry)), hid⟩
    · exact ⟨entry, .inr (.inr (.inr hentry)), hid⟩
  obtain ⟨other, hmem, heq⟩ := hother
  refine Option.isSome_iff_exists.1 (List.findSome?_isSome_iff.2 ⟨other, hmem, ?_⟩)
  rw [if_pos heq]
  rfl

namespace Config.Names

variable {config : Config} {t front rest : Text} {page : Page} {id : NamespaceId}

/-- Where no namespace is in front of a colon, the text is a title. -/
theorem main_iff (hnone : ∀ parts ∈ Text.splitOnce? ':' t,
      Text.trim parts.1 = [] ∨ config.namespaceId? parts.1 = none) :
    config.Names t page ↔ Reader.mainPage? config t = some page := by
  constructor
  · intro h
    cases h with
    | main _ htitle =>
      rw [Reader.mainPage?, htitle]
      rfl
    | inNamespace hsplit hblank hname =>
      rcases hnone _ hsplit with hnil | hnone
      · exact absurd hnil hblank
      · rw [hname] at hnone
        cases hnone
  · intro h
    obtain ⟨title, htitle, rfl⟩ := Option.map_eq_some_iff.1 h
    exact .main hnone htitle

/-- Where there is one, what follows the colon is the title. -/
theorem inNamespace_iff (hsplit : Text.splitOnce? ':' t = some (front, rest))
    (hblank : Text.trim front ≠ []) (hname : config.namespaceId? front = some id) :
    config.Names t page ↔ ((normalizeTitle? config.capitalLinks rest).map fun title =>
      (⟨id, (config.namespaceName? id).getD (Text.trim front), title⟩ : Page)) = some page := by
  constructor
  · intro h
    cases h with
    | main hnone _ =>
      rcases hnone _ hsplit with hnil | hnone
      · exact absurd hnil hblank
      · rw [hname] at hnone
        cases hnone
    | inNamespace hsplit' _ hname' hlabel htitle =>
      rw [hsplit] at hsplit'
      cases hsplit'
      rw [hname] at hname'
      cases hname'
      rw [htitle, hlabel]
      rfl
  · intro h
    obtain ⟨title, htitle, rfl⟩ := Option.map_eq_some_iff.1 h
    obtain ⟨label, hlabel⟩ := exists_namespaceName? hname
    rw [hlabel]
    exact .inNamespace hsplit hblank hname hlabel htitle

end Config.Names

namespace Reader

variable {config : Config} {t : Text} {page : Page}

/-- The page that is read of a text is the one that it names behind its leading
colon. -/
theorem page?_eq_some_iff :
    page? config t = some page ↔ config.Names (Text.afterColon t) page := by
  have htrimmed (front : Text) : config.namespaceId? (Text.trim front) =
      config.namespaceId? front := Config.namespaceId?_congr (Text.trim_trim front)
  unfold page?
  dsimp only
  split
  · next hsplit =>
    refine (Config.Names.main_iff fun parts hparts => ?_).symm
    cases hsplit.symm.trans hparts
  · next front rest hsplit =>
    split
    · next hnone =>
      refine (Config.Names.main_iff fun parts hparts => ?_).symm
      cases hsplit.symm.trans hparts
      by_cases hblank : Text.trim front = []
      · exact .inl hblank
      · rw [if_neg (by rwa [List.isEmpty_iff]), htrimmed] at hnone
        exact .inr hnone
    · next id hsome =>
      have hblank : Text.trim front ≠ [] := by
        intro hblank
        rw [hblank] at hsome
        cases hsome
      rw [if_neg (by rwa [List.isEmpty_iff]), htrimmed] at hsome
      exact (Config.Names.inNamespace_iff hsplit hblank hsome).symm

end Reader

-- ============================================================== full titles

namespace Config

variable {config : Config} {t label title : Text} {id : NamespaceId} {page : Page}

/-- The title behind the first colon has one colon less. -/
theorem count_title_of_splitOnce? {capital : Bool} {front rest : Text}
    (hsplit : Text.splitOnce? ':' t = some (front, rest))
    (htitle : normalizeTitle? capital rest = some title) :
    title.count ':' + 1 = t.count ':' := by
  obtain ⟨rfl, hfront⟩ := Text.splitOnce?_eq_some_iff.1 hsplit
  rw [count_colon_normalizeTitle? htitle, List.count_append, List.count_eq_zero.2 hfront,
    Nat.zero_add, List.count_cons_self]

/-- A page that has the name of its namespace is read from a text with one colon
more than there are in the title, any other page from a text with as many or with
one more. -/
theorem Names.count_title (h : config.Names t page) :
    (page.namespaceName = [] ∧ page.title.count ':' = t.count ':') ∨
      page.title.count ':' + 1 = t.count ':' := by
  cases h with
  | main _ htitle => exact .inl ⟨rfl, count_colon_normalizeTitle? htitle⟩
  | inNamespace hsplit _ _ _ htitle => exact .inr (count_title_of_splitOnce? hsplit htitle)

/-- The name of a namespace without the blanks it begins with, and without a colon
behind these. -/
def bareName (label : Text) : Text := Text.dropColon (Text.trimFront label)

/-- The full title of the page names the page itself. A page without the name of a
namespace has to be in the main namespace, and its title must neither begin with a
colon nor with the name of a namespace in front of one. Otherwise the name of the
namespace must be found again: there is no colon in it, but for one at its front,
it is not blank, and it stands for the number of the namespace. -/
def Recovers (config : Config) (page : Page) : Prop :=
  if page.namespaceName = [] then
    page.namespaceId = NamespaceId.main ∧ page.title.head? ≠ some ':' ∧
      ∀ parts ∈ Text.splitOnce? ':' page.title, config.namespaceId? parts.1 = none
  else
    ':' ∉ bareName page.namespaceName ∧ Text.trim (bareName page.namespaceName) ≠ [] ∧
      config.namespaceId? (bareName page.namespaceName) = some page.namespaceId

theorem trim_named (h : IsTitle title) (label : Text) :
    Text.trim (label ++ ':' :: title) = Text.trimFront (label ++ ':' :: title) := by
  refine Text.trim_of_getLast? fun c hc => ?_
  rw [List.getLast?_append, List.getLast?_cons_of_ne_nil h.ne_nil,
    List.getLast?_eq_some_getLast h.ne_nil] at hc
  exact h.isBlank_ends.2 c ((List.getLast?_eq_some_getLast h.ne_nil).trans hc)

theorem afterColon_named (h : IsTitle title) (hlabel : Text.trimFront label ≠ []) :
    Text.afterColon (label ++ ':' :: title) = bareName label ++ ':' :: title := by
  rw [Text.afterColon, trim_named h, Text.trimFront_append hlabel, Text.dropColon_append hlabel,
    bareName]

theorem names_title_iff (h : Normalized config.capitalLinks title) :
    config.Names (Text.afterColon title) ⟨id, [], title⟩ ↔ config.Recovers ⟨id, [], title⟩ := by
  have htitle := isTitle_of_normalizeTitle? h
  obtain ⟨hfirst, hlast⟩ := htitle.isBlank_ends
  rw [Recovers, if_pos rfl, Text.afterColon, Text.trim_eq_self hfirst hlast]
  obtain ⟨c, rest, rfl⟩ := List.exists_cons_of_ne_nil htitle.ne_nil
  by_cases hc : c = ':'
  · -- the colon is not read as a part of the title
    subst hc
    refine iff_of_false (fun hnames => ?_) fun hrecovers => hrecovers.2.1 rfl
    have hcount : (':' :: rest).count ':' = rest.count ':' + 1 := List.count_cons_self
    rcases hnames.count_title with ⟨-, hsame⟩ | hless
    · exact absurd (hcount.symm.trans hsame) (Nat.succ_ne_self _)
    · have hless : (':' :: rest).count ':' + 1 = rest.count ':' := hless
      omega
  · rw [Text.dropColon_of_ne hc]
    constructor
    · intro hnames
      cases hnames with
      | main hnone _ =>
        refine ⟨rfl, fun hhead => hc (Option.some.inj hhead), fun parts hparts => ?_⟩
        refine (hnone parts hparts).resolve_left fun hblank => ?_
        obtain ⟨happend, -⟩ := Text.splitOnce?_eq_some_iff.1 hparts
        cases hfront : parts.1 with
        | nil =>
          rw [hfront] at happend
          exact hc (List.cons.inj happend).1
        | cons d front =>
          rw [hfront] at happend hblank
          obtain rfl := (List.cons.inj happend).1
          have hall := Text.trim_eq_nil_iff.1 hblank
          rw [Text.isBlankText, List.all_cons, hfirst c rfl] at hall
          cases hall
      | inNamespace hsplit _ _ _ hrest =>
        exact absurd (count_title_of_splitOnce? hsplit hrest) (Nat.succ_ne_self _)
    · rintro ⟨rfl, -, hnone⟩
      exact .main (fun parts hparts => .inr (hnone parts hparts)) h

theorem names_fullTitle_iff (h : Normalized config.capitalLinks title) (hlabel : label ≠ [])
    (hname : config.namespaceName? id = some label) :
    config.Names (Text.afterColon (label ++ ':' :: title)) ⟨id, label, title⟩ ↔
      config.Recovers ⟨id, label, title⟩ := by
  have htitle := isTitle_of_normalizeTitle? h
  rw [Recovers, if_neg hlabel]
  by_cases hblank : Text.trimFront label = []
  · -- what is left begins with the colon, so the name is lost
    have hbare : bareName label = [] := by
      rw [bareName, hblank]
      rfl
    have hafter : Text.afterColon (label ++ ':' :: title) = title := by
      rw [Text.afterColon, trim_named htitle,
        Text.trimFront_blanks_append (Text.trimFront_eq_nil_iff.1 hblank)]
      rfl
    rw [hafter]
    refine iff_of_false (fun hnames => ?_) fun hrecovers => hrecovers.2.1 (by rw [hbare]; rfl)
    rcases hnames.count_title with ⟨hnil, -⟩ | hless
    · exact hlabel hnil
    · exact absurd hless (Nat.succ_ne_self _)
  · rw [afterColon_named htitle hblank]
    constructor
    · intro hnames
      cases hnames with
      | main _ _ => exact absurd rfl hlabel
      | @inNamespace front rest _ _ _ hsplit hfront hid _ hrest =>
        have hcolon : ':' ∉ bareName label := by
          have hcount := count_title_of_splitOnce? hsplit hrest
          rw [List.count_append, List.count_cons_self] at hcount
          exact List.count_eq_zero.1 (by omega)
        have hwhole : Text.splitOnce? ':' (bareName label ++ ':' :: title) =
            some (bareName label, title) := Text.splitOnce?_eq_some_iff.2 ⟨rfl, hcolon⟩
        obtain ⟨rfl, -⟩ := Prod.mk.inj (Option.some.inj (hwhole.symm.trans hsplit))
        exact ⟨hcolon, hfront, hid⟩
    · rintro ⟨hcolon, hbare, hid⟩
      exact .inNamespace (Text.splitOnce?_eq_some_iff.2 ⟨rfl, hcolon⟩) hbare hid hname h

end Config

namespace Reader

open Config

variable {config : Config} {t : Text} {page : Page}

/-- **A page is read back just if its full title names nothing else.** -/
theorem page?_fullTitle_iff (h : page? config t = some page) :
    page? config page.fullTitle = some page ↔ config.Recovers page := by
  have hnormalized := normalized_of_page? h
  have hlabel : page.namespaceName ≠ [] →
      config.namespaceName? page.namespaceId = some page.namespaceName := by
    intro hne
    cases page?_eq_some_iff.1 h with
    | main _ _ => exact absurd rfl hne
    | inNamespace _ _ _ hname _ => exact hname
  obtain ⟨id, label, title⟩ := page
  rw [page?_eq_some_iff, Page.fullTitle]
  by_cases hnil : label = []
  · subst hnil
    exact names_title_iff hnormalized
  · rw [if_neg (by rwa [List.isEmpty_iff])]
    exact names_fullTitle_iff hnormalized hnil (hlabel hnil)

end Reader

end InlineQuery
