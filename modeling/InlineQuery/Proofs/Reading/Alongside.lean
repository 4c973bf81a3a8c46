/-
Readings that go the same way.

A reader acts on the text that is left to it and on the blocks that are open.
What was reported before is looked at in one kind of place only: where an atom
or a subquery ends without a condition, to see whether anything was reported
since it began.

So take two readers of one wiki, whatever their default restrictions, and two
states that differ in their diagnostics. From there on both readers find the
same chunks, and as long as they make the same reports they are `Alongside` each
other. An atom that has no subquery in it is read alongside from its beginning
to its end (`alongside_classAtom`, `alongside_articleAtom`): the question whether
anything was reported since it began has the same answer for both.
-/
import InlineQuery.Proofs.Reading.Associativity
import InlineQuery.Proofs.Reading.Comparison

namespace InlineQuery

namespace State

/-- From `s` and from `s'`, two readers have got to `t` and to `t'`, with the same
text left, with the same blocks open, and with the same reports on the way. -/
structure Alongside (s s' t t' : State) : Prop where
  rest : t'.rest = t.rest
  blocks : t'.blocks = t.blocks
  reports : ∃ more, t.diagnostics = s.diagnostics ++ more ∧
    t'.diagnostics = s'.diagnostics ++ more

namespace Alongside

variable {s s' t t' : State}

theorem refl (hrest : s'.rest = s.rest) (hblocks : s'.blocks = s.blocks) :
    Alongside s s' s s' :=
  ⟨hrest, hblocks, [], (List.append_nil _).symm, (List.append_nil _).symm⟩

theorem report (h : Alongside s s' t t') (problem : Diagnostic) :
    Alongside s s' (t.report problem) (t'.report problem) := by
  obtain ⟨more, hmore, hmore'⟩ := h.reports
  refine ⟨h.rest, h.blocks, more ++ [problem], ?_, ?_⟩
  · show t.diagnostics ++ [problem] = _
    rw [hmore, List.append_assoc]
  · show t'.diagnostics ++ [problem] = _
    rw [hmore', List.append_assoc]

theorem enter (h : Alongside s s' t t') (block : Block) :
    Alongside s s' (t.enter block) (t'.enter block) :=
  ⟨h.rest, congrArg (block :: ·) h.blocks, h.reports⟩

theorem leave (h : Alongside s s' t t') : Alongside s s' t.leave t'.leave :=
  ⟨h.rest, congrArg List.tail h.blocks, h.reports⟩

/-- Both readers take the same chunk from the text. -/
theorem moveTo (h : Alongside s s' t t') (rest : Text) :
    Alongside s s' { t with rest := rest } { t' with rest := rest } :=
  ⟨rfl, h.blocks, h.reports⟩

theorem expected?_eq (h : Alongside s s' t t') : t'.expected? = t.expected? := by
  rw [expected?, expected?, h.blocks]

/-- Both readers, or neither, have reported something since they set out. -/
theorem quiet_eq (h : Alongside s s' t t') :
    (t'.diagnostics.length == s'.diagnostics.length) =
      (t.diagnostics.length == s.diagnostics.length) := by
  obtain ⟨more, hmore, hmore'⟩ := h.reports
  rw [hmore, hmore', List.length_append, List.length_append, Bool.eq_iff_iff, beq_iff_eq,
    beq_iff_eq]
  omega

end Alongside

end State

namespace Reader

open State

variable {r r' : Reader} {s s' t t' : State}

/-- Two readers have got to the same chunk alongside each other. -/
structure ChunksAlongside (s s' : State) (c c' : Chunk) : Prop where
  text : c'.text = c.text
  state : Alongside s s' c.state c'.state

theorem alongside_reportAny (problem : Option Diagnostic) (h : Alongside s s' t t') :
    Alongside s s' (reportAny problem t) (reportAny problem t') := by
  cases problem with
  | none => exact h
  | some problem => exact h.report problem

theorem alongside_leaveAtom (h : Alongside s s' t t') :
    Alongside s s' (leaveAtom t) (leaveAtom t') := by
  unfold leaveAtom
  rw [h.blocks, h.expected?_eq]
  split
  · exact h.leave
  · exact h.leave.report _

theorem alongside_leaveAtEnd (h : Alongside s s' t t') :
    Alongside s s' (leaveAtEnd t) (leaveAtEnd t') := by
  unfold leaveAtEnd
  rw [h.blocks]
  split
  · exact h.leave.report _
  · exact h

section

variable (hwiki : r.SameWiki r')

include hwiki

-- =================================================================== chunks

theorem alongside_nextAt (stop : StopSet) (h : Alongside s s' t t') :
    ChunksAlongside s s' (r.nextAt stop t) (r'.nextAt stop t') := by
  unfold nextAt
  rw [hwiki.labels, h.rest]
  exact ⟨rfl, h.moveTo _⟩

theorem alongside_next (h : Alongside s s' t t') :
    ChunksAlongside s s' (r.next t) (r'.next t') :=
  alongside_nextAt hwiki .all h

theorem firstChunk_of_alongside (h : Alongside s s' t t') :
    r'.firstChunk t' = r.firstChunk t := by
  rw [firstChunk, firstChunk, hwiki.labels, h.rest]

theorem alongside_opened (h : Alongside s s' t t') :
    Alongside s s' (r.opened t) (r'.opened t') := by
  unfold opened
  rw [hwiki.labels, h.rest]
  exact (h.enter .atom).moveTo _

theorem StartsProperty.of_alongside (hs : r.StartsProperty t) (h : Alongside s s' t t') :
    r'.StartsProperty t' where
  noClass := by
    rw [hwiki.classKind?, firstChunk_of_alongside hwiki h]
    exact hs.noClass
  notEmpty := by
    rw [firstChunk_of_alongside hwiki h]
    exact hs.notEmpty
  separator := by
    rw [(alongside_next hwiki (alongside_opened hwiki h)).text]
    exact hs.separator

-- ========================================================== closing an atom

theorem alongside_skipToClosing (h : Alongside s s' t t') :
    (r'.skipToClosing t').1 = (r.skipToClosing t).1 ∧
      ChunksAlongside s s' (r.skipToClosing t).2 (r'.skipToClosing t').2 := by
  have hfirst := alongside_nextAt hwiki .closingBrackets h
  unfold skipToClosing
  dsimp only
  rw [hfirst.text]
  split
  · exact ⟨rfl, hfirst⟩
  · exact ⟨rfl, alongside_nextAt hwiki .closingBrackets hfirst.state⟩

theorem alongside_skipLabel {c c' : Chunk} (h : ChunksAlongside s s' c c') :
    ChunksAlongside s s' (r.skipLabel c) (r'.skipLabel c') := by
  obtain ⟨hcontent, hclosing⟩ := alongside_skipToClosing hwiki h.state
  unfold skipLabel
  rw [h.text]
  split
  · dsimp only
    rw [hcontent]
    exact ⟨hclosing.text, hclosing.state.report _⟩
  · exact h

theorem alongside_expectClosing {c c' : Chunk} (h : ChunksAlongside s s' c c') :
    Alongside s s' (r.expectClosing c) (r'.expectClosing c') := by
  have hskip := (alongside_skipToClosing hwiki (h.state.report (.misplacedSymbol c.text))).2
  unfold expectClosing
  rw [h.text]
  split
  · exact h.state
  · split
    · exact h.state.report _
    · dsimp only
      rw [hskip.text]
      split
      · exact hskip.state.report _
      · exact hskip.state

/-- Atoms end alongside if both of them are reported as empty, or neither is. -/
theorem alongside_finishAtom {c c' : Chunk} (h : ChunksAlongside s s' c c') {mark mark' : Nat}
    (restricted restricted' : Bool) {result result' : Option Description}
    (hbad : (result'.isNone && c'.state.diagnostics.length == mark') =
      (result.isNone && c.state.diagnostics.length == mark)) :
    Alongside s s' (r.finishAtom mark false restricted result c).state
      (r'.finishAtom mark' false restricted' result' c').state := by
  simp only [state_finishAtom, beforeLeaving, restrictAtom_false, hbad]
  apply alongside_leaveAtom
  apply alongside_expectClosing hwiki
  apply alongside_skipLabel hwiki
  refine ⟨h.text, ?_⟩
  split
  · exact h.state.report .badAtom
  · exact h.state

/-- Atoms that began with these diagnostics and have the same condition end
alongside. -/
theorem alongside_finishAtom_same {c c' : Chunk} (h : ChunksAlongside s s' c c')
    (restricted : Bool) {result result' : Option Description} (hresult : result' = result) :
    (r'.finishAtom s'.diagnostics.length false restricted result' c').result =
        (r.finishAtom s.diagnostics.length false restricted result c).result ∧
      Alongside s s' (r.finishAtom s.diagnostics.length false restricted result c).state
        (r'.finishAtom s'.diagnostics.length false restricted result' c').state := by
  subst hresult
  refine ⟨by rw [result_finishAtom, result_finishAtom],
    alongside_finishAtom hwiki h restricted restricted ?_⟩
  rw [h.state.quiet_eq]

theorem alongside_abandonAtom (h : Alongside s s' t t') {mark mark' : Nat}
    (hbad : (t'.diagnostics.length == mark') = (t.diagnostics.length == mark)) :
    Alongside s s' (r.abandonAtom mark false t).state (r'.abandonAtom mark' false t').state := by
  apply alongside_finishAtom hwiki (alongside_skipToClosing hwiki h).2
  rw [diagnostics_skipToClosing, diagnostics_skipToClosing, hbad]

variable (hall : ∀ feature, r.config.features.has feature = true)
  (hall' : ∀ feature, r'.config.features.has feature = true)

include hall hall'

-- ======================================================= atoms by their kind

theorem alongside_memberAt (kind : ClassKind) (result : Option Description)
    (h : Alongside s s' t t') :
    (r'.memberAt kind result t').result = (r.memberAt kind result t).result ∧
      Alongside s s' (r.memberAt kind result t).state (r'.memberAt kind result t').state := by
  have hname := alongside_next hwiki h
  unfold memberAt
  rw [hwiki.classMember, hname.text]
  split
  · exact ⟨rfl, hname.state⟩
  · rw [combine_of_permitted hall, combine_of_permitted hall']
    exact ⟨rfl, alongside_reportAny _ hname.state⟩

theorem alongside_articleAt (result : Option Description) {c c' : Chunk}
    (h : ChunksAlongside s s' c c') :
    (r'.articleAt result c').result = (r.articleAt result c).result ∧
      Alongside s s' (r.articleAt result c).state (r'.articleAt result c').state := by
  unfold articleAt
  rw [hwiki.articleMember, h.text, combine_of_permitted hall, combine_of_permitted hall']
  exact ⟨rfl, alongside_reportAny _ h.state⟩

theorem alongside_readClass (kind : ClassKind) (result : Option Description) (t t' : State)
    (h : Alongside s s' t t') :
    (r'.readClass kind result t').result = (r.readClass kind result t).result ∧
      ChunksAlongside s s' (r.readClass kind result t).terminator
        (r'.readClass kind result t').terminator := by
  have hname := alongside_next hwiki h
  by_cases hend : (Token.ofChunk (r.next t).text).isDelimiter = true
  · rw [readClass_end hend, readClass_end (by rwa [hname.text])]
    exact ⟨rfl, hname⟩
  · have hend := Bool.eq_false_iff.2 hend
    have hend' : (Token.ofChunk (r'.next t').text).isDelimiter = false := by rwa [hname.text]
    obtain ⟨hresult, hmember⟩ := alongside_memberAt hwiki hall hall' kind result h
    have hfollowing := alongside_next hwiki hmember
    by_cases hmore : kind = .category ∧
        Token.ofChunk (r.next (r.memberAt kind result t).state).text = .bars
    · have hlt : (r.next (r.memberAt kind result t).state).state.rest.length < t.rest.length :=
        Nat.lt_of_le_of_lt (next_length_le r _)
          (by simpa only [rest_memberAt] using next_length_lt_of_member hend)
      rw [readClass_more hend hmore, readClass_more hend' (by rwa [hfollowing.text]), hresult]
      exact alongside_readClass kind _ _ _ hfollowing.state
    · rw [readClass_last hend hmore, readClass_last hend' (by rwa [hfollowing.text])]
      exact ⟨hresult, hfollowing⟩
termination_by t.rest.length

/-- A category list or a concept is read alongside from its beginning. -/
theorem alongside_classAtom (kind : ClassKind) (h : Alongside s s' t t') :
    (r'.classAtom kind s'.diagnostics.length false t').result =
        (r.classAtom kind s.diagnostics.length false t).result ∧
      Alongside s s' (r.classAtom kind s.diagnostics.length false t).state
        (r'.classAtom kind s'.diagnostics.length false t').state := by
  obtain ⟨hresult, hmembers⟩ := alongside_readClass hwiki hall hall' kind none t t' h
  exact alongside_finishAtom_same hwiki hmembers false hresult

/-- So are pages and namespaces. -/
theorem alongside_articleAtom (result : Option Description) (c c' : Chunk)
    (h : ChunksAlongside s s' c c') :
    (r'.articleAtom s'.diagnostics.length false result c').result =
        (r.articleAtom s.diagnostics.length false result c).result ∧
      Alongside s s' (r.articleAtom s.diagnostics.length false result c).state
        (r'.articleAtom s'.diagnostics.length false result c').state := by
  by_cases hquery : Token.ofChunk c.text = .openQuery
  · have hreported := h.state.report .misplacedSubquery
    rw [articleAtom_misplaced hquery, articleAtom_misplaced (by rwa [h.text])]
    refine ⟨?_, alongside_abandonAtom hwiki hreported hreported.quiet_eq⟩
    rw [abandonAtom, abandonAtom, result_finishAtom, result_finishAtom]
  · have hquery' : Token.ofChunk c'.text ≠ .openQuery := by rwa [h.text]
    obtain ⟨hresult, hmember⟩ := alongside_articleAt hwiki hall hall' result h
    have hfollowing := alongside_nextAt hwiki .atomContent hmember
    by_cases hmore : Token.ofChunk (r.nextAt .atomContent (r.articleAt result c).state).text = .bars
    · have hlt : (r.nextAt .atomContent (r.nextAt .atomContent
          (r.articleAt result c).state).state).state.rest.length < c.state.rest.length := by
        have hle := nextAt_length_le r .atomContent
          (r.nextAt .atomContent (r.articleAt result c).state).state
        have hlt := nextAt_length_lt (Token.ne_nil_of_ofChunk hmore (by decide))
        rw [rest_articleAt] at hlt
        exact Nat.lt_of_le_of_lt hle hlt
      rw [articleAtom_more hquery hmore, articleAtom_more hquery' (by rwa [hfollowing.text]),
        hresult]
      exact alongside_articleAtom _ _ _ (alongside_nextAt hwiki .atomContent hfollowing.state)
    · rw [articleAtom_close hquery hmore, articleAtom_close hquery' (by rwa [hfollowing.text])]
      exact alongside_finishAtom_same hwiki hfollowing true hresult
termination_by c.state.rest.length

end

end Reader

end InlineQuery
