import Mathlib.Data.List.Sort
import RobotProgram.Proofs.Routine.Invariant

/-!
# Depths and pairs of brackets

Going through a routine, each closing bracket makes a pair with the last opening one in front of it
that is in no pair yet, if there is one. The depth that the forward pass gives to a command is the
number of opening brackets in front of it that are in no pair by then. So the brackets of a pair stand
at one depth, what they enclose stands deeper, and a closing bracket without partner is at zero.

## Main definitions

* `Routine.pairs`: the pairs that the first brackets make.
* `Routine.Matched`: two brackets that are a pair.
* `Routine.enclosing`: the opening brackets of the blocks that a command stands in.
* `Routine.Nested`: depths as the pairs of brackets have them.
-/

namespace RobotProgram.Routine

variable {bs : List Bracket} {i j k n : Nat}

/-- The last opening bracket in front of a place that is in none of some pairs. -/
def lastOpening? (bs : List Bracket) (pairs : List (Nat × Nat)) (place : Nat) : Option Nat :=
  (List.range place).reverse.find? fun i => bs[i]? = some .opening ∧ i ∉ pairs.map Prod.fst

/-- The pairs of the first brackets: a closing one and the last opening one that is still single. -/
def pairs (bs : List Bracket) : Nat → List (Nat × Nat)
  | 0 => []
  | place + 1 =>
    if bs[place]? = some .closing then
      ((lastOpening? bs (pairs bs place) place).map (·, place)).toList ++ pairs bs place
    else pairs bs place

/-- The brackets at two places are a pair. -/
def Matched (bs : List Bracket) (i j : Nat) : Prop := (i, j) ∈ pairs bs bs.length

instance : Decidable (Matched bs i j) := inferInstanceAs (Decidable ((i, j) ∈ _))

/-- The opening brackets in front of a place whose partner, if any, comes behind the place. -/
def enclosing (bs : List Bracket) (place : Nat) : List Nat :=
  (List.range place).filter fun i => bs[i]? = some .opening ∧ ∀ j ≤ place, ¬ Matched bs i j

/-- Depths as the pairs of brackets have them. -/
structure Nested (bs : List Bracket) (depths : List Nat) : Prop where
  /-- A command stands in the blocks that have begun and not ended by then. -/
  depth : depths = (List.range bs.length).map fun i => (enclosing bs i).length
  pair : ∀ i j, Matched bs i j → ∃ d, depths[i]? = some d ∧ depths[j]? = some d
  inside : ∀ i j k, Matched bs i j → i < k → k < j →
    ∃ d e, depths[i]? = some d ∧ depths[k]? = some e ∧ d < e
  /-- The end of a block that has not begun goes out of none. -/
  stray : ∀ j, bs[j]? = some .closing → (∀ i, ¬ Matched bs i j) → depths[j]? = some 0

/-! ## Open brackets -/

/-- The opening brackets among the first ones that are in no pair yet, the last of them first. -/
def opened (bs : List Bracket) (n : Nat) : List Nat :=
  (List.range n).reverse.filter fun i => bs[i]? = some .opening ∧ i ∉ (pairs bs n).map Prod.fst

theorem pairwise_opened : (opened bs n).Pairwise (· > ·) :=
  (List.pairwise_reverse.mpr List.pairwise_lt_range).filter _

/-- The first of those that are open is the last one that was opened. -/
theorem head?_opened_eq_some_iff :
    (opened bs n).head? = some i ↔ i ∈ opened bs n ∧ ∀ k ∈ opened bs n, k ≤ i := by
  have order : (opened bs n).Pairwise (· > ·) := pairwise_opened
  cases stack : opened bs n with
  | nil => simp
  | cons a rest =>
    rw [stack, List.pairwise_cons] at order
    constructor
    · rintro ⟨⟩
      exact ⟨List.mem_cons_self, by grind⟩
    · rintro ⟨mem, last⟩
      have := last a List.mem_cons_self
      grind

theorem lastOpening?_pairs : lastOpening? bs (pairs bs n) n = (opened bs n).head? := by
  rw [opened, List.head?_filter, lastOpening?]

theorem mem_pairs_succ :
    (i, j) ∈ pairs bs (n + 1) ↔
      (j = n ∧ bs[j]? = some .closing ∧ (opened bs j).head? = some i) ∨ (i, j) ∈ pairs bs n := by
  rw [pairs]
  split
  · rename_i closing
    rw [lastOpening?_pairs, List.mem_append]
    refine or_congr_left ?_
    simp only [Option.mem_toList, Option.map_eq_some_iff, Prod.mk.injEq]
    constructor
    · rintro ⟨_, last, rfl, rfl⟩
      exact ⟨rfl, closing, last⟩
    · rintro ⟨rfl, -, last⟩
      exact ⟨i, last, rfl, rfl⟩
  · grind

theorem mem_pairs :
    (i, j) ∈ pairs bs n ↔ j < n ∧ bs[j]? = some .closing ∧ (opened bs j).head? = some i := by
  induction n with
  | zero => simp [pairs]
  | succ n ih => grind [mem_pairs_succ]

/-- The partner of a closing bracket is the last one that is open when it comes. -/
theorem matched_iff_head? :
    Matched bs i j ↔ bs[j]? = some .closing ∧ (opened bs j).head? = some i := by
  rw [Matched, mem_pairs]
  grind

theorem mem_fst_pairs : i ∈ (pairs bs n).map Prod.fst ↔ ∃ j < n, Matched bs i j := by
  simp only [List.mem_map, Prod.exists, exists_and_right, exists_eq_right, mem_pairs,
    matched_iff_head?]

theorem mem_opened :
    i ∈ opened bs n ↔ i < n ∧ bs[i]? = some .opening ∧ ∀ j < n, ¬ Matched bs i j := by
  simp [opened, mem_fst_pairs]

/-- What makes a pair, said of all brackets at once. -/
theorem matched_iff :
    Matched bs i j ↔ bs[j]? = some .closing ∧ i < j ∧ bs[i]? = some .opening ∧
      (∀ k < j, ¬ Matched bs i k) ∧
      ∀ k, i < k → k < j → bs[k]? = some .opening → ∃ l < j, Matched bs k l := by
  rw [matched_iff_head?, head?_opened_eq_some_iff]
  constructor
  · rintro ⟨closing, mem, last⟩
    obtain ⟨lt, opening, single⟩ := mem_opened.mp mem
    refine ⟨closing, lt, opening, single, fun k after before start => ?_⟩
    by_contra free
    have := last k (mem_opened.mpr ⟨before, start, by grind⟩)
    omega
  · rintro ⟨closing, lt, opening, single, taken⟩
    refine ⟨closing, mem_opened.mpr ⟨lt, opening, single⟩, fun k mem => ?_⟩
    obtain ⟨before, start, free⟩ := mem_opened.mp mem
    by_contra after
    obtain ⟨l, within, pair⟩ := taken k (by omega) before start
    exact free l within pair

/-- A bracket is open until its partner comes. -/
theorem Matched.mem_opened (matched : Matched bs i j) (after : i < k) (before : k ≤ j) :
    i ∈ opened bs k := by
  obtain ⟨-, -, opening, single, -⟩ := matched_iff.mp matched
  exact Routine.mem_opened.mpr ⟨after, opening, fun l lt => single l (by omega)⟩

/-! ## One bracket more -/

/-- Open brackets are known by which they are, since they come last to first. -/
theorem opened_eq {stack : List Nat} (order : stack.Pairwise (· > ·))
    (same : ∀ i, i ∈ opened bs n ↔ i ∈ stack) : opened bs n = stack :=
  pairwise_opened.eq_of_mem_iff order same

theorem opened_of_opening (opening : bs[n]? = some .opening) :
    opened bs (n + 1) = n :: opened bs n := by
  refine opened_eq (List.pairwise_cons.mpr ⟨?_, pairwise_opened⟩) fun i => ?_
  · intro i mem
    exact (mem_opened.mp mem).1
  · rw [List.mem_cons, mem_opened, mem_opened]
    grind [matched_iff]

theorem opened_of_neither (opening : bs[n]? ≠ some .opening) (closing : bs[n]? ≠ some .closing) :
    opened bs (n + 1) = opened bs n := by
  refine opened_eq pairwise_opened fun i => ?_
  rw [mem_opened, mem_opened]
  grind [matched_iff]

/-- A closing bracket takes its partner off, which is the first of those that are open. -/
theorem opened_of_closing (closing : bs[n]? = some .closing) :
    opened bs (n + 1) = (opened bs n).tail := by
  refine opened_eq pairwise_opened.tail fun i => ?_
  have rest : i ∈ (opened bs n).tail ↔ i ∈ opened bs n ∧ ¬ (opened bs n).head? = some i := by
    have order : (opened bs n).Pairwise (· > ·) := pairwise_opened
    cases stack : opened bs n with
    | nil => simp
    | cons k rest =>
      rw [stack, List.pairwise_cons] at order
      grind
  have taken : Matched bs i n ↔ (opened bs n).head? = some i := by
    simp [matched_iff_head?, closing]
  rw [rest, ← taken, mem_opened, mem_opened]
  grind

/-! ## Depths -/

/-- The depth that the first brackets leave is the number of those that are open. -/
theorem foldl_depthAfter_take (bs : List Bracket) (n : Nat) :
    (bs.take n).foldl depthAfter 0 = (opened bs n).length := by
  induction n with
  | zero => simp [opened]
  | succ n ih =>
    rw [List.take_add_one, List.foldl_append, ih]
    cases next : bs[n]? with
    | none => simp [opened_of_neither, next]
    | some b =>
      cases b with
      | opening => simp [opened_of_opening next, depthAfter]
      | closing => simp [opened_of_closing next, depthAfter]
      | plain => simp [opened_of_neither, next, depthAfter]

theorem getElem?_depths (depth : Nat) (bs : List Bracket) (k : Nat) :
    (depths depth bs)[k]? = bs[k]?.map (depthOf ((bs.take k).foldl depthAfter depth)) := by
  induction bs generalizing depth k with
  | nil => simp [depths]
  | cons b rest ih =>
    cases k with
    | zero => simp [depths]
    | succ k => simpa [depths] using ih (depthAfter depth b) k

theorem getElem?_depths_zero {b : Bracket} (here : bs[k]? = some b) :
    (depths 0 bs)[k]? = some (depthOf (opened bs k).length b) := by
  rw [getElem?_depths, foldl_depthAfter_take, here, Option.map_some]

theorem mem_enclosing :
    i ∈ enclosing bs k ↔ i < k ∧ bs[i]? = some .opening ∧ ∀ j ≤ k, ¬ Matched bs i j := by
  simp [enclosing]

/-- A closing bracket stands outside the block that it ends. -/
theorem length_enclosing {b : Bracket} (here : bs[k]? = some b) :
    (enclosing bs k).length = depthOf (opened bs k).length b := by
  have order : (enclosing bs k).reverse.Pairwise (· > ·) :=
    List.pairwise_reverse.mpr (List.pairwise_lt_range.filter _)
  cases b with
  | closing =>
    have ended : opened bs (k + 1) = (enclosing bs k).reverse := by
      refine opened_eq order fun i => ?_
      rw [mem_opened, List.mem_reverse, mem_enclosing]
      grind
    rw [← List.length_reverse, ← ended, opened_of_closing here, List.length_tail, depthOf]
  | opening | plain =>
    have same : opened bs k = (enclosing bs k).reverse := by
      refine opened_eq order fun i => ?_
      rw [mem_opened, List.mem_reverse, mem_enclosing]
      grind [matched_iff]
    rw [← List.length_reverse, ← same]
    rfl

theorem depths_eq_enclosing (bs : List Bracket) :
    depths 0 bs = (List.range bs.length).map fun i => (enclosing bs i).length := by
  refine List.ext_getElem? fun k => ?_
  rw [getElem?_depths, foldl_depthAfter_take, List.getElem?_map]
  cases here : bs[k]? with
  | none => simp [List.getElem?_eq_none_iff.mp here]
  | some b =>
    obtain ⟨bound, -⟩ := List.getElem?_eq_some_iff.mp here
    simp [List.getElem?_range bound, length_enclosing here]

/-! ## Blocks -/

namespace Matched

/-- What was open when a block began stays so until the block has ended. -/
theorem not_matched_of_mem_enclosing (matched : Matched bs i j) {m l : Nat}
    (mem : m ∈ enclosing bs i) (within : l ≤ j) : ¬ Matched bs m l := by
  intro other
  obtain ⟨before, -, free⟩ := mem_enclosing.mp mem
  obtain ⟨-, -, opening, single, -⟩ := matched_iff.mp matched
  have late : i < l := by
    by_contra early
    exact free l (by omega) other
  -- a bracket that closes an earlier block comes after the end of this one
  obtain ⟨-, -, -, -, taken⟩ := matched_iff.mp other
  obtain ⟨stop, soon, pair⟩ := taken i before late opening
  exact single stop (by omega) pair

theorem enclosing_eq (matched : Matched bs i j) : enclosing bs i = enclosing bs j := by
  obtain ⟨-, lt, opening, single, taken⟩ := matched_iff.mp matched
  have order (n : Nat) : (enclosing bs n).Pairwise (· < ·) := List.pairwise_lt_range.filter _
  refine (order i).eq_of_mem_iff (order j) fun m => ?_
  constructor
  · intro mem
    obtain ⟨before, start, -⟩ := mem_enclosing.mp mem
    refine mem_enclosing.mpr ⟨by omega, start, fun l within => ?_⟩
    exact matched.not_matched_of_mem_enclosing mem within
  · intro mem
    obtain ⟨before, start, free⟩ := mem_enclosing.mp mem
    have outer : m < i := by
      by_contra inner
      rcases Nat.lt_or_eq_of_le (Nat.le_of_not_lt inner) with after | rfl
      · obtain ⟨l, soon, pair⟩ := taken m after before start
        exact free l (by omega) pair
      · exact free j (le_refl j) matched
    exact mem_enclosing.mpr ⟨outer, start, fun l within => free l (by omega)⟩

theorem cons_enclosing_subset (matched : Matched bs i j) (after : i < k) (before : k < j) :
    i :: enclosing bs i ⊆ enclosing bs k := by
  obtain ⟨-, lt, opening, single, -⟩ := matched_iff.mp matched
  refine List.cons_subset.mpr ⟨mem_enclosing.mpr ⟨after, opening, ?_⟩, fun m mem => ?_⟩
  · intro l within
    exact single l (by omega)
  · obtain ⟨outer, start, -⟩ := mem_enclosing.mp mem
    refine mem_enclosing.mpr ⟨by omega, start, fun l within => ?_⟩
    exact matched.not_matched_of_mem_enclosing mem (by omega)

theorem length_enclosing_lt (matched : Matched bs i j) (after : i < k) (before : k < j) :
    (enclosing bs i).length < (enclosing bs k).length := by
  have nodup : (i :: enclosing bs i).Nodup := by
    refine List.nodup_cons.mpr ⟨fun mem => ?_, List.nodup_range.filter _⟩
    exact Nat.lt_irrefl i (mem_enclosing.mp mem).1
  exact (List.subperm_of_subset nodup (matched.cons_enclosing_subset after before)).length_le

end Matched

theorem length_enclosing_of_stray (closing : bs[j]? = some .closing) (stray : ∀ i, ¬ Matched bs i j) :
    (enclosing bs j).length = 0 := by
  have none : opened bs j = [] := by
    refine List.head?_eq_none_iff.mp (Option.eq_none_iff_forall_not_mem.mpr fun i first => ?_)
    exact stray i (matched_iff_head?.mpr ⟨closing, first⟩)
  rw [length_enclosing closing, none]
  rfl

theorem nested_depths (bs : List Bracket) : Nested bs (depths 0 bs) := by
  have depth {i : Nat} {b : Bracket} (here : bs[i]? = some b) :
      (depths 0 bs)[i]? = some (enclosing bs i).length := by
    rw [getElem?_depths_zero here, length_enclosing here]
  refine ⟨depths_eq_enclosing bs, ?_, ?_, ?_⟩
  · intro i j matched
    obtain ⟨closing, -, opening, -⟩ := matched_iff.mp matched
    refine ⟨_, depth opening, ?_⟩
    rw [matched.enclosing_eq, depth closing]
  · intro i j k matched after before
    obtain ⟨closing, -, opening, -⟩ := matched_iff.mp matched
    obtain ⟨bound, -⟩ := List.getElem?_eq_some_iff.mp closing
    have inner : bs[k]? = some bs[k] := List.getElem?_eq_getElem (by omega)
    exact ⟨_, _, depth opening, depth inner, matched.length_enclosing_lt after before⟩
  · intro j closing stray
    rw [depth closing, length_enclosing_of_stray closing stray]

/--
Whatever depths were stored before, the forward pass leaves the commands as they are and stores the
depths that the pairs of brackets have.
-/
theorem nested_indents_reindent (r : Routine) (wf : r.commands.WellFormed) :
    r.reindent.brackets = r.brackets ∧ Nested r.brackets r.reindent.indents := by
  refine ⟨brackets_reindent wf, ?_⟩
  rw [indents_reindent wf]
  exact nested_depths r.brackets

/--
A block in a block, behind an end that ends nothing and in front of another one and of a block that
does not end. The stored depths are made up.
-/
def unkempt : Routine :=
  let kinds : List CommandKind :=
    [.endBlock, .startBlock, .wait, .startBlock, .wait, .endBlock, .endBlock, .endBlock, .startBlock,
      .wait]
  let commands := kinds.map fun kind => (⟨kind, none, kind.logic, 7⟩ : Command)
  ⟨commands.foldl .register (.empty "command"), true⟩

theorem nested_unkempt :
    unkempt.commands.WellFormed ∧ unkempt.indents = List.replicate 10 7 ∧
      Nested unkempt.brackets unkempt.reindent.indents ∧
      pairs unkempt.brackets 10 = [(1, 6), (3, 5)] ∧
      unkempt.reindent.indents = [0, 0, 1, 1, 2, 1, 0, 0, 0, 1] := by
  have wf : unkempt.commands.WellFormed :=
    (Roster.registerAll_spec (Roster.wellFormed_empty "command") _).1
  exact ⟨wf, by decide, (nested_indents_reindent unkempt wf).2, by decide, by decide⟩

end RobotProgram.Routine
