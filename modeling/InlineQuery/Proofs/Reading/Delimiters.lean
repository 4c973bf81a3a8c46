/-
Mismatched delimiters.

Since blocks are closed in the order in which they were opened, there are two
mistakes that a query can make with its delimiters: it can end inside of a
subquery, and it can have a `</q>` that closes nothing, which ends the reading
of it. The end of an atom always finds the block of the atom innermost, on every
way that leads there (`Makes.insideAtom`), so its own check never fails.
-/
import InlineQuery.Proofs.Reading.Calls

namespace InlineQuery

namespace Reader

open State

variable {r : Reader} {call call' : Call}

-- ============================================================= inside atoms

/-- If the call is one that is made inside an atom only, the block of the atom
is the innermost one. -/
def Call.InsideAtom (call : Call) : Prop :=
  match call with
  | .property .. | .members .. | .articles .. | .closing .. | .leaving .. =>
    ∃ blocks, call.before.blocks = .atom :: blocks
  | _ => True

/-- A call inside an atom makes the calls of the atom inside of it. -/
theorem Makes.insideAtom (h : r.Makes call call') (hinside : call.InsideAtom) :
    call'.InsideAtom := by
  cases h with
  | members kind restrict s => exact ⟨s.blocks, rfl⟩
  | closeClass kind restrict s =>
    exact ⟨s.blocks, (follows_readClass (r := r) kind none (follows_opened r s)).blocks⟩
  | closeEmpty restrict s => exact ⟨s.blocks, rfl⟩
  | escapedArticles restrict s => exact ⟨s.blocks, rfl⟩
  | articles restrict s => exact ⟨s.blocks, rfl⟩
  | property restrict s => exact ⟨s.blocks, rfl⟩
  | behindMember kind result s =>
    obtain ⟨blocks, hblocks⟩ := hinside
    exact ⟨blocks, (blocks_memberAt r kind result s).trans hblocks⟩
  | closeMisplaced mark restrict result c =>
    obtain ⟨blocks, hblocks⟩ := hinside
    have hreported := (Follows.refl hblocks).report .misplacedSubquery trivial
    exact ⟨blocks, (follows_skipToClosing (r := r) hreported).blocks⟩
  | behindArticle mark restrict result c =>
    obtain ⟨blocks, hblocks⟩ := hinside
    exact ⟨blocks, (blocks_articleAt r result c).trans hblocks⟩
  | closeArticles mark restrict result c =>
    obtain ⟨blocks, hblocks⟩ := hinside
    exact ⟨blocks, (blocks_articleAt r result c).trans hblocks⟩
  | closeNameless mark restrict name s problem hchain =>
    obtain ⟨blocks, hblocks⟩ := hinside
    have hreported := (Follows.refl hblocks).report problem (orderly_chain hchain)
    exact ⟨blocks, (follows_skipToClosing (r := r) hreported).blocks⟩
  | closeProperty mark restrict name s c =>
    obtain ⟨blocks, hblocks⟩ := hinside
    exact ⟨blocks, (follows_readValues r c none s).blocks.trans hblocks⟩
  | closeValueless mark restrict name s c =>
    obtain ⟨blocks, hblocks⟩ := hinside
    exact ⟨blocks, (follows_readValues r c none s).blocks.trans hblocks⟩
  | leave mark restrict restricted result c =>
    obtain ⟨blocks, hblocks⟩ := hinside
    have hleaving := follows_beforeLeaving (r := r) (Follows.refl hblocks)
    exact ⟨blocks, (hleaving mark restrict restricted result).blocks⟩
  | _ => trivial

/-- Wherever a reading of a query closes an atom, its block is innermost. -/
theorem Reached.insideAtom {query : Text} (h : r.Reached query call) : call.InsideAtom := by
  induction h with
  | refl => trivial
  | tail _ h ih => exact h.insideAtom ih

-- =================================================== mismatched delimiters

/-- Among orderly diagnostics, with or without one more behind them, only that
one can be about anything but the end of the query. -/
theorem mismatched_cases {more front back : List Diagnostic} (last : Option Diagnostic)
    {expected found : Option Text} (hmore : ∀ d ∈ more, d.Orderly)
    (h : more ++ last.toList = front ++ .mismatchedDelimiter expected found :: back) :
    (expected = some Block.subquery.closing ∧ found = none) ∨
      (last = some (.mismatchedDelimiter expected found) ∧ back = []) := by
  cases last with
  | none =>
    rw [Option.toList_none, List.append_nil] at h
    refine .inl (hmore (.mismatchedDelimiter expected found) ?_)
    rw [h]
    exact List.mem_append_right front List.mem_cons_self
  | some d =>
    rcases List.eq_nil_or_concat back with rfl | ⟨init, final, rfl⟩
    · have hlast := (List.append_inj' h rfl).2
      rw [List.cons.inj hlast |>.1]
      exact .inr ⟨rfl, rfl⟩
    · rw [List.concat_eq_append, ← List.cons_append, ← List.append_assoc] at h
      have hfront := (List.append_inj' h rfl).1
      refine .inl (hmore (.mismatchedDelimiter expected found) ?_)
      rw [hfront]
      exact List.mem_append_right front List.mem_cons_self

/-- **A block is closed before the blocks around it.** An atom leaves the open
blocks as it found them, and a subquery takes off the block that was opened for
it. At the end of a query nothing is open. A mismatched delimiter is the end of
the query instead of a `</q>`, or it is a `</q>` where nothing was open, which
is then the last thing reported; the check at the end of an atom never fails. -/
theorem blocks_balanced (r : Reader) :
    (∀ restrict s, (r.readAtom restrict s).val.state.blocks = s.blocks) ∧
    (∀ restrict (s : State),
      (r.readSubquery restrict (s.enter .subquery)).val.state.blocks = s.blocks) ∧
    ∀ query, (r.read query).state.blocks = [] ∧
      (∀ front back expected found,
        (r.read query).state.diagnostics =
          front ++ .mismatchedDelimiter expected found :: back →
        (expected = some Block.subquery.closing ∧ found = none) ∨
          (expected = none ∧ back = [] ∧ ∃ chunk, found = some chunk ∧
            Text.eqIgnoreAsciiCase chunk Block.subquery.closing = true)) ∧
      ∀ s, r.Reached query (.leaving s) → s.blocks.head? = some .atom := by
  refine ⟨fun restrict s => (follows_readAtom r restrict s).blocks,
    fun restrict s => (follows_readSubquery r restrict s).blocks, fun query => ?_⟩
  obtain ⟨o, hends, hstate⟩ := read_ends r query
  rw [hstate]
  refine ⟨?_, ?_, ?_⟩
  · cases hends with
    | finish hfollows => exact hfollows.blocks
    | stray restricted chunk hfollows => exact hfollows.blocks
  · intro front back expected found heq
    cases hends with
    | finish hfollows =>
      obtain ⟨more, hmore, horderly⟩ := hfollows.added
      rw [hmore] at heq
      rcases mismatched_cases none horderly ((List.append_nil more).trans heq) with
        hend | ⟨hlast, -⟩
      · exact .inl hend
      · cases hlast
    | stray restricted chunk hfollows hclose =>
      obtain ⟨more, hmore, horderly⟩ := hfollows.added
      have hall : more ++ [.mismatchedDelimiter none (some chunk)] =
          front ++ .mismatchedDelimiter expected found :: back := by
        rw [← heq]
        exact congrArg (· ++ _) hmore.symm
      rcases mismatched_cases (some _) horderly hall with hend | ⟨hlast, hback⟩
      · exact .inl hend
      · cases hlast
        exact .inr ⟨rfl, hback, chunk, rfl, Token.eqIgnoreAsciiCase_of_closeQuery hclose⟩
  · intro s hreached
    obtain ⟨blocks, hblocks⟩ := hreached.insideAtom
    rw [show s.blocks = .atom :: blocks from hblocks]
    rfl

end Reader

end InlineQuery
