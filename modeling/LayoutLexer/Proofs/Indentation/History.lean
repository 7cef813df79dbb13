import LayoutLexer.Proofs.Step
import Mathlib.Data.List.Basic
import Mathlib.Data.Set.Card
import Mathlib.Order.Bounds.Defs

/-! # The indentation stack is told by its history

A stack is asked to go to one width after another and, now and then, to close.  What is open then
can be told from the widths that were given since it was last closed, without a stack: with the
width zero of the base before them, they are the widths that no later one undercuts
(`IndentStack.Standing`).

The one fact behind this is that the stacked widths increase from the base on.  So the levels that
a line closes are just the wider ones, wherever they are, and going to a width leaves the widths
below it and puts the width on top (`widths_transition`), whatever it is called and whether or
not a level is resynchronized on the way.  Resynchronized levels count in one place only, the
number of blocks that are closed, and over any calls the blocks that were opened are those that
were closed and those still open (`opened_run`).
-/
namespace LayoutLexer
namespace IndentStack

variable {s : IndentStack} {w v : Nat} {ws : List Nat}

/-! ## Calls and answers -/

/-- What can be asked of a stack. -/
inductive Call where
  /-- A line of a width comes. -/
  | transition (width : Nat)
  | close
  deriving DecidableEq, Repr

/-- What a call is answered with. -/
inductive Answer where
  | transition (t : Transition)
  | close (blocks : Nat)
  deriving DecidableEq, Repr

/-- The answer to a call, and the stack after it. -/
def answer (s : IndentStack) : Call → Answer × IndentStack
  | .transition width => (.transition (s.transition width).1, (s.transition width).2)
  | .close => (.close s.close.1, s.close.2)

/-- The answers to calls in turn, and the stack after them. -/
def run (s : IndentStack) : List Call → List Answer × IndentStack
  | [] => ([], s)
  | c :: calls =>
    let (a, s') := s.answer c
    let (answers, last) := s'.run calls
    (a :: answers, last)

theorem run_cons (s : IndentStack) (c : Call) (calls : List Call) :
    s.run (c :: calls) =
      ((s.answer c).1 :: ((s.answer c).2.run calls).1, ((s.answer c).2.run calls).2) := rfl

/-- The last of some calls is answered by the stack after the others. -/
theorem run_concat (s : IndentStack) (calls : List Call) (c : Call) :
    s.run (calls ++ [c]) =
      ((s.run calls).1 ++ [((s.run calls).2.answer c).1], ((s.run calls).2.answer c).2) := by
  induction calls generalizing s with
  | nil => rfl
  | cons d calls ih =>
    rw [List.cons_append, run_cons, run_cons, ih]
    rfl

/-- The widths that were given since the stack was last closed. -/
def sinceClose (calls : List Call) : List Nat :=
  calls.foldl (fun ws c =>
    match c with
    | .transition width => ws ++ [width]
    | .close => []) []

theorem sinceClose_concat_transition (calls : List Call) (w : Nat) :
    sinceClose (calls ++ [.transition w]) = sinceClose calls ++ [w] := by
  rw [sinceClose, List.foldl_append]
  rfl

theorem sinceClose_concat_close (calls : List Call) : sinceClose (calls ++ [.close]) = [] := by
  rw [sinceClose, List.foldl_append]
  rfl

/-! ## The stacked widths -/

/-- The widths on the stack from the base on. -/
def widths (s : IndentStack) : List Nat := 0 :: (s.levels.map Level.width).reverse

/-- The stacked widths increase. -/
def Increasing (s : IndentStack) : Prop := s.widths.Pairwise (· < ·)

@[simp] theorem widths_base : base.widths = [0] := rfl

@[simp] theorem widths_push (s : IndentStack) (level : Level) :
    (s.push level).widths = s.widths ++ [level.width] := by
  simp [widths, push]

theorem increasing_base : base.Increasing := List.pairwise_singleton _ _

/-- The last of the stacked widths is the innermost one. -/
theorem exists_widths_eq (s : IndentStack) : ∃ outer, s.widths = outer ++ [s.current] := by
  obtain ⟨_ | ⟨level, levels⟩⟩ := s
  · exact ⟨[], rfl⟩
  · exact ⟨widths ⟨levels⟩, widths_push ⟨levels⟩ level⟩

theorem increasing_iff :
    s.Increasing ↔
      s.levels.Pairwise (fun a b => b.width < a.width) ∧ ∀ level ∈ s.levels, 0 < level.width := by
  rw [Increasing, widths, List.pairwise_cons, List.pairwise_reverse, List.pairwise_map, and_comm]
  simp only [List.mem_reverse, List.forall_mem_map]

/-- In a list where a property of one element is one of all before it, the elements in front that
have it are all that have it. -/
theorem takeWhile_eq_filter {α : Type} {p : α → Bool} {l : List α}
    (h : l.Pairwise fun a b => p b = true → p a = true) :
    l.takeWhile p = l.filter p ∧ l.dropWhile p = l.filter fun a => !p a := by
  induction l with
  | nil => exact ⟨rfl, rfl⟩
  | cons a l ih =>
    obtain ⟨hhead, htail⟩ := List.pairwise_cons.1 h
    obtain ⟨htake, hdrop⟩ := ih htail
    cases ha : p a with
    | true => simp [ha, htake, hdrop]
    | false =>
      have hnone : ∀ b ∈ l, p b = false := fun b hb =>
        Bool.eq_false_iff.2 fun hpb => by rw [hhead b hb hpb] at ha; cases ha
      constructor
      · simpa [ha] using hnone
      · rw [List.dropWhile_cons_of_neg (by simp [ha]), eq_comm, List.filter_eq_self]
        simpa [ha] using hnone

namespace Increasing

/-- What a line closes are the levels that are wider than it. -/
theorem wider_eq (h : s.Increasing) (w : Nat) :
    s.wider w = s.levels.filter fun level => w < level.width := by
  refine (takeWhile_eq_filter ((increasing_iff.1 h).1.imp fun hlt => ?_)).1
  simp only [decide_eq_true_eq]
  omega

/-- What a line keeps are the levels that are no wider than it. -/
theorem widths_narrowed (h : s.Increasing) (w : Nat) :
    (s.narrowed w).widths = s.widths.filter fun v => v ≤ w := by
  have hkept : (s.narrowed w).levels = s.levels.filter fun level => !decide (w < level.width) := by
    refine (takeWhile_eq_filter ((increasing_iff.1 h).1.imp fun hlt => ?_)).2
    simp only [decide_eq_true_eq]
    omega
  rw [widths, hkept, widths, List.filter_cons_of_pos (by simp), List.filter_reverse,
    List.filter_map]
  congr 4
  funext level
  rw [Function.comp_apply, ← decide_not]
  exact decide_eq_decide.2 Nat.not_lt

theorem narrowed (h : s.Increasing) (w : Nat) : (s.narrowed w).Increasing := by
  rw [Increasing, h.widths_narrowed]
  exact h.filter _

/-- The innermost width is the greatest one. -/
theorem isGreatest_current (h : s.Increasing) : IsGreatest {v | v ∈ s.widths} s.current := by
  obtain ⟨outer, houter⟩ := s.exists_widths_eq
  rw [Increasing, houter] at h
  rw [houter]
  refine ⟨by simp, fun v hv => ?_⟩
  rcases List.mem_append.1 hv with hv | hv
  · exact Nat.le_of_lt ((List.pairwise_append.1 h).2.2 v hv _ (List.mem_singleton_self _))
  · exact Nat.le_of_eq (List.mem_singleton.1 hv)

/-- The other widths are below the innermost one. -/
theorem widths_eq (h : s.Increasing) :
    s.widths = (s.widths.filter fun v => v < s.current) ++ [s.current] := by
  obtain ⟨outer, houter⟩ := s.exists_widths_eq
  have hbelow : ∀ v ∈ outer, v < s.current := by
    rw [Increasing, houter] at h
    exact fun v hv => (List.pairwise_append.1 h).2.2 v hv _ (List.mem_singleton_self _)
  rw [houter, List.filter_append, List.filter_eq_self.2 (by simpa using hbelow)]
  simp

/-- The greatest width that a line keeps is its own width just if that is stacked. -/
theorem current_narrowed_eq_iff (h : s.Increasing) :
    (s.narrowed w).current = w ↔ w ∈ s.widths := by
  have hgreatest := (h.narrowed w).isGreatest_current
  rw [h.widths_narrowed] at hgreatest
  obtain ⟨hmem, hle⟩ := hgreatest
  have hkept := List.mem_filter.1 hmem
  constructor
  · intro heq
    rw [← heq]
    exact hkept.1
  · intro hw
    have hup := hle (List.mem_filter.2 ⟨hw, by simp⟩)
    have hdown : (s.narrowed w).current ≤ w := by simpa using hkept.2
    omega

/-- **Going to a width leaves the widths below it and puts it on top.** -/
theorem widths_transition (h : s.Increasing) (w : Nat) :
    (s.transition w).2.widths = (s.widths.filter fun v => v < w) ++ [w] := by
  rcases s.transition_cases w with ⟨rfl, ht⟩ | ⟨hlt, ht⟩ | ⟨_, hkept, ht⟩ | ⟨_, hkept, ht⟩ <;>
    rw [ht]
  · exact h.widths_eq
  · have hall : ∀ v ∈ s.widths, v < w := fun v hv =>
      Nat.lt_of_le_of_lt (h.isGreatest_current.2 hv) hlt
    rw [widths_push, List.filter_eq_self.2 (by simpa using hall)]
  · have hself := (h.narrowed w).widths_eq
    rw [hkept, h.widths_narrowed, List.filter_filter] at hself
    rw [h.widths_narrowed, hself]
    congr 1
    refine List.filter_congr fun v _ => ?_
    rw [Bool.eq_iff_iff]
    simp
    omega
  · have hnot : w ∉ s.widths := fun hw => hkept (h.current_narrowed_eq_iff.2 hw)
    rw [widths_push, h.widths_narrowed]
    congr 1
    refine List.filter_congr fun v hv => ?_
    have hne : v ≠ w := fun heq => hnot (heq ▸ hv)
    rw [Bool.eq_iff_iff]
    simp
    omega

theorem transition (h : s.Increasing) (w : Nat) : (s.transition w).2.Increasing := by
  rw [Increasing, h.widths_transition]
  refine List.pairwise_append.2 ⟨h.filter _, List.pairwise_singleton _ _, ?_⟩
  intro v hv u hu
  rw [List.mem_singleton.1 hu]
  simpa using (List.mem_filter.1 hv).2

end Increasing

/-! ## Widths that no later one undercuts -/

/-- Among widths in their order, a width has an occurrence after which none is smaller. -/
def Standing (ws : List Nat) (v : Nat) : Prop :=
  ∃ before after, ws = before ++ v :: after ∧ ∀ w ∈ after, v ≤ w

theorem standing_singleton : Standing [w] v ↔ v = w := by
  constructor
  · rintro ⟨before, after, heq, _⟩
    have hmem : v ∈ [w] := by rw [heq]; simp
    exact List.mem_singleton.1 hmem
  · rintro rfl
    exact ⟨[], [], rfl, List.forall_mem_nil _⟩

/-- One more width undercuts those above it, and nothing undercuts it. -/
theorem standing_concat_iff : Standing (ws ++ [w]) v ↔ v = w ∨ Standing ws v ∧ v ≤ w := by
  constructor
  · rintro ⟨before, after, heq, hafter⟩
    rcases List.eq_nil_or_concat after with rfl | ⟨more, u, rfl⟩
    · obtain ⟨_, hlast⟩ := List.append_inj' heq rfl
      exact .inl (List.cons.inj hlast).1.symm
    · right
      rw [List.concat_eq_append] at heq hafter
      rw [← List.cons_append, ← List.append_assoc] at heq
      obtain ⟨rfl, hlast⟩ := List.append_inj' heq rfl
      obtain rfl := (List.cons.inj hlast).1
      exact ⟨⟨before, more, rfl, fun x hx => hafter x (List.mem_append_left _ hx)⟩,
        hafter w (by simp)⟩
  · rintro (rfl | ⟨⟨before, after, rfl, hafter⟩, hle⟩)
    · exact ⟨ws, [], rfl, List.forall_mem_nil _⟩
    · refine ⟨before, after ++ [w], by simp, fun x hx => ?_⟩
      rcases List.mem_append.1 hx with hx | hx
      · exact hafter x hx
      · rw [List.mem_singleton.1 hx]
        exact hle

/-- The stack holds what the given widths, that of the base first, have left standing. -/
structure Holds (ws : List Nat) (s : IndentStack) : Prop where
  increasing : s.Increasing
  mem_widths_iff : ∀ v, v ∈ s.widths ↔ Standing ws v
  getLast : ws.getLast? = some s.current

namespace Holds

theorem base : Holds [0] base where
  increasing := increasing_base
  mem_widths_iff v := by rw [standing_singleton, widths_base, List.mem_singleton]
  getLast := rfl

theorem transition (h : Holds ws s) (w : Nat) : Holds (ws ++ [w]) (s.transition w).2 where
  increasing := h.increasing.transition w
  mem_widths_iff v := by
    rw [standing_concat_iff, ← h.mem_widths_iff, h.increasing.widths_transition, List.mem_append,
      List.mem_filter, List.mem_singleton, decide_eq_true_eq, or_comm]
    constructor
    · rintro (rfl | ⟨hv, hlt⟩)
      · exact .inl rfl
      · exact .inr ⟨hv, Nat.le_of_lt hlt⟩
    · rintro (rfl | ⟨hv, hle⟩)
      · exact .inl rfl
      · rcases Nat.lt_or_eq_of_le hle with hlt | rfl
        · exact .inr ⟨hv, hlt⟩
        · exact .inl rfl
  getLast := by rw [List.getLast?_concat, current_transition]

/-- The number of levels is that of the widths above zero that are left standing. -/
theorem depth_eq (h : Holds ws s) : s.depth = {v | 0 < v ∧ Standing ws v}.ncard := by
  have hincreasing : (0 :: (s.levels.map Level.width).reverse).Pairwise (· < ·) := h.increasing
  obtain ⟨hpos, htail⟩ := List.pairwise_cons.1 hincreasing
  have hset : {v | 0 < v ∧ Standing ws v} =
      ((s.levels.map Level.width).reverse.toFinset : Set Nat) := by
    ext v
    rw [Set.mem_ofPred_eq, ← h.mem_widths_iff, widths, List.mem_cons, List.coe_toFinset,
      Set.mem_ofPred_eq]
    constructor
    · rintro ⟨hv, rfl | hmem⟩
      · exact absurd hv (Nat.lt_irrefl 0)
      · exact hmem
    · exact fun hmem => ⟨hpos v hmem, .inr hmem⟩
  rw [hset, Set.ncard_coe_finset, List.toFinset_card_of_nodup (htail.imp Nat.ne_of_lt)]
  simp [depth]

end Holds

/-- After any calls the stack holds what the widths since it was last closed have left
standing. -/
theorem holds_run (calls : List Call) : Holds (0 :: sinceClose calls) (base.run calls).2 := by
  induction calls using List.reverseRecOn with
  | nil => exact .base
  | append_singleton calls c ih =>
    rw [run_concat]
    cases c with
    | transition w =>
      rw [sinceClose_concat_transition]
      exact ih.transition w
    | close =>
      rw [sinceClose_concat_close]
      exact .base

/-! ## What a width is answered with -/

/-- The answer to a width is told by the stacked widths, but for the number of blocks that it
closes: these are the wider levels that are not resynchronized. -/
structure Decides (s : IndentStack) (w : Nat) (t : Transition) : Prop where
  same : t = .same ↔ w = s.current
  indent : t = .indent ↔ s.current < w
  dedent : ∀ k, t = .dedent k ↔ w < s.current ∧ w ∈ s.widths ∧
    k = s.levels.countP fun level => w < level.width && !level.resynchronized
  inconsistent : ∀ k e, t = .inconsistent k e ↔ w < s.current ∧ w ∉ s.widths ∧
    (k = s.levels.countP fun level => w < level.width && !level.resynchronized) ∧
    IsGreatest {v | v ∈ s.widths ∧ v < w} e

theorem Increasing.blocks_wider (h : s.Increasing) (w : Nat) :
    blocks (s.wider w) =
      s.levels.countP fun level => w < level.width && !level.resynchronized := by
  rw [blocks, h.wider_eq, List.countP_filter]
  refine List.countP_congr fun level _ => ?_
  rw [Bool.and_comm]

theorem Increasing.decides (h : s.Increasing) (w : Nat) : Decides s w (s.transition w).1 := by
  have hblocks := h.blocks_wider w
  have hstacked := @Increasing.current_narrowed_eq_iff s w h
  rcases s.transition_cases w with ⟨rfl, ht⟩ | ⟨hlt, ht⟩ | ⟨hlt, hkept, ht⟩ | ⟨hlt, hkept, ht⟩ <;>
    rw [ht]
  · exact ⟨by simp, by simp, by simp, by simp⟩
  · have hne : w ≠ s.current := by omega
    have hge : ¬ w < s.current := by omega
    exact ⟨by simp [hne], by simp [hlt], by simp [hge], by simp [hge]⟩
  · have hne : w ≠ s.current := by omega
    have hge : ¬ s.current < w := by omega
    have hmem := hstacked.1 hkept
    exact ⟨by simp [hne], by simp [hge], by simp [hlt, hmem, hblocks, eq_comm], by simp [hmem]⟩
  · have hne : w ≠ s.current := by omega
    have hge : ¬ s.current < w := by omega
    have hnot : w ∉ s.widths := fun hw => hkept (hstacked.2 hw)
    -- what the line keeps is below it, and the greatest of that is the enclosing width
    have hgreatest : IsGreatest {v | v ∈ s.widths ∧ v < w} (s.narrowed w).current := by
      have hset : {v | v ∈ s.widths ∧ v < w} = {v | v ∈ (s.narrowed w).widths} := by
        ext v
        rw [Set.mem_ofPred_eq, Set.mem_ofPred_eq, h.widths_narrowed, List.mem_filter,
          decide_eq_true_eq]
        refine and_congr_right fun hv => ⟨Nat.le_of_lt, fun hle => ?_⟩
        exact Nat.lt_of_le_of_ne hle fun heq => hnot (heq ▸ hv)
      rw [hset]
      exact (h.narrowed w).isGreatest_current
    refine ⟨by simp [hne], by simp [hge], by simp [hnot], fun k e => ?_⟩
    rw [Transition.inconsistent.injEq, hblocks, eq_comm (a := k)]
    constructor
    · rintro ⟨hk, rfl⟩
      exact ⟨hlt, hnot, hk, hgreatest⟩
    · rintro ⟨_, _, hk, he⟩
      exact ⟨hk, hgreatest.unique he⟩

/-! ## Blocks that are opened and closed -/

/-- The number of blocks that an answer says are opened. -/
def Answer.opened : Answer → Nat
  | .transition .indent => 1
  | _ => 0

/-- The number of blocks that an answer says are closed. -/
def Answer.closed : Answer → Nat
  | .transition (.dedent blocks) => blocks
  | .transition (.inconsistent blocks _) => blocks
  | .close blocks => blocks
  | _ => 0

/-- What is open before a call or is opened by it is closed by it or open after it. -/
theorem opened_answer (s : IndentStack) (c : Call) :
    blocks s.levels + (s.answer c).1.opened =
      (s.answer c).1.closed + blocks (s.answer c).2.levels := by
  cases c with
  | transition w =>
    have hsplit := s.blocks_wider_add_narrowed w
    rw [answer]
    rcases s.transition_cases w with ⟨_, ht⟩ | ⟨_, ht⟩ | ⟨_, _, ht⟩ | ⟨_, _, ht⟩ <;> rw [ht]
    · exact (Nat.zero_add _).symm
    · show blocks s.levels + 1 = 0 + blocks (⟨w, false⟩ :: s.levels)
      rw [blocks_cons, Nat.zero_add]
      rfl
    · exact hsplit.symm
    · show blocks s.levels + 0 = _ + blocks (⟨w, true⟩ :: (s.narrowed w).levels)
      rw [blocks_cons]
      exact hsplit.symm
  | close => rfl

theorem opened_run (s : IndentStack) (calls : List Call) :
    blocks s.levels + ((s.run calls).1.map Answer.opened).sum =
      ((s.run calls).1.map Answer.closed).sum + blocks (s.run calls).2.levels := by
  induction calls generalizing s with
  | nil => exact (Nat.zero_add _).symm
  | cons c calls ih =>
    have hcall := s.opened_answer c
    have hcalls := ih (s.answer c).2
    rw [run_cons]
    simp only [List.map_cons, List.sum_cons]
    omega

/-- **The stack is told by its history.**  After any calls on a fresh stack the stacked widths
increase from zero on, and they are the widths since it was last closed that no later one
undercuts, that of the base among them; so the innermost one is the width given last, and the
number of levels is that of the others.  What any width is answered with is told by the stacked
widths and by the number of wider levels that are not resynchronized.  And the blocks that were
opened are those that were closed and those that are still open. -/
theorem told_by_history (calls : List Call) :
    let history := 0 :: sinceClose calls
    let answers := (base.run calls).1
    let s := (base.run calls).2
    (s.widths.head? = some 0 ∧ s.widths.Pairwise (· < ·) ∧
      (∀ v, v ∈ s.widths ↔ Standing history v) ∧ history.getLast? = some s.current ∧
      s.depth = {v | 0 < v ∧ Standing history v}.ncard) ∧
    (∀ w, Decides s w (s.transition w).1) ∧
    (answers.map Answer.opened).sum = (answers.map Answer.closed).sum + blocks s.levels := by
  have hholds := holds_run calls
  have hopened := opened_run base calls
  refine ⟨⟨rfl, hholds.increasing, hholds.mem_widths_iff, hholds.getLast, hholds.depth_eq⟩,
    hholds.increasing.decides, ?_⟩
  rw [← hopened]
  exact (Nat.zero_add _).symm

/-- A block of two levels, a line between them that is inconsistent and one within the
resynchronized level: of the widths since the stack was closed only that level and the last one
are left. -/
example :
    (base.run [.transition 3, .close, .transition 4, .transition 8, .transition 6,
      .transition 7]).2.widths = [0, 4, 6, 7] := by decide

end IndentStack
end LayoutLexer
