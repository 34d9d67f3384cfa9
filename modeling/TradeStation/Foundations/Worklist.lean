import Mathlib.Data.List.Basic
import Mathlib.Logic.Relation

/-!
# Work lists

A work list finds what can be reached in a graph. It takes the node on top of its stack, passes over
one that it has met before, and pushes the successors of a new one that it has not met.

* `Graph`: the successors of each node, with none outside a finite list of nodes. It may have cycles.
* `SetOrder`: the order in which a set is run through, which is nothing to rely on.
* `Graph.drain`: the loop. It ends because a turn either meets one more of the finitely many nodes that
  have successors, or makes the stack shorter.
* `mem_drain_iff`: it meets exactly what is reached. The invariant is `Graph.Pushed`: the successors
  of every node that was met are met or on the stack.
-/

namespace TradeStation.Foundations

/-- A graph with finitely many nodes that have successors. -/
structure Graph (α : Type*) where
  nodes : List α
  next : α → List α
  next_eq_nil : ∀ a, a ∉ nodes → next a = []

/-- The order in which the elements of a set are taken, at a moment that is told by what was met so
far. -/
structure SetOrder (α : Type*) where
  list : List α → List α → List α
  perm : ∀ met set, (list met set).Perm set

/-- The order of the list. -/
def SetOrder.asListed (α : Type*) : SetOrder α where
  list _ set := set
  perm _ set := .refl set

namespace Graph

variable {α : Type*} {graph : Graph α} {start start' : List α} {a b : α}

/-- One edge. -/
def Edge (graph : Graph α) (a b : α) : Prop := b ∈ graph.next a

/-- `a` is reached from `start`. -/
def Reached (graph : Graph α) (start : List α) (a : α) : Prop :=
  ∃ s ∈ start, Relation.ReflTransGen graph.Edge s a

theorem Reached.of_mem (h : a ∈ start) : graph.Reached start a := ⟨a, h, .refl⟩

theorem Reached.edge (h : graph.Reached start a) (hb : b ∈ graph.next a) :
    graph.Reached start b := by
  obtain ⟨s, hs, hpath⟩ := h
  exact ⟨s, hs, hpath.tail hb⟩

/-- **The rule of induction**: what holds at the start and along every edge holds of all that is
reached. -/
theorem Reached.induct {P : α → Prop} (h : graph.Reached start a) (hstart : ∀ s ∈ start, P s)
    (hedge : ∀ a b, graph.Reached start a → P a → b ∈ graph.next a → P b) : P a := by
  obtain ⟨s, hs, hpath⟩ := h
  induction hpath with
  | refl => exact hstart s hs
  | tail hpath hb ih => exact hedge _ _ ⟨s, hs, hpath⟩ ih hb

variable [DecidableEq α]

/-- The nodes that were not met. -/
def unmet (graph : Graph α) (met : List α) : List α := graph.nodes.filter (· ∉ met)

/-- The successors of a node that are still to be met. -/
def fresh (graph : Graph α) (met : List α) (a : α) : List α :=
  (graph.next a).filter (· ∉ a :: met)

theorem mem_fresh {met : List α} :
    b ∈ graph.fresh met a ↔ b ∈ graph.next a ∧ b ∉ a :: met := by
  simp [fresh]

theorem unmet_cons (graph : Graph α) (met : List α) (a : α) :
    graph.unmet (a :: met) = (graph.unmet met).filter (· ≠ a) := by
  unfold unmet
  rw [List.filter_filter]
  apply List.filter_congr
  intro b _
  simp [not_or]

theorem unmet_le (graph : Graph α) (met : List α) (a : α) :
    (graph.unmet (a :: met)).length ≤ (graph.unmet met).length := by
  rw [unmet_cons]
  exact List.length_filter_le _ _

theorem unmet_lt (graph : Graph α) {met : List α} (hnode : a ∈ graph.nodes) (hnew : a ∉ met) :
    (graph.unmet (a :: met)).length < (graph.unmet met).length := by
  rw [unmet_cons, List.length_filter_lt_length_iff_exists]
  exact ⟨a, List.mem_filter.2 ⟨hnode, by simpa using hnew⟩, by simp⟩

/-- The loop, with what it has met so far and the stack. -/
def drain (graph : Graph α) (order : SetOrder α) (met : List α) : List α → List α
  | [] => met
  | a :: stack =>
    if a ∈ met then drain graph order met stack
    else drain graph order (a :: met) (order.list (a :: met) (graph.fresh met a) ++ stack)
termination_by stack => ((graph.unmet met).length, stack.length)
decreasing_by
  · exact Prod.Lex.right _ (by simp)
  · rename_i hnew
    by_cases hnode : a ∈ graph.nodes
    · exact Prod.Lex.left _ _ (graph.unmet_lt hnode hnew)
    · have hfresh : graph.fresh met a = [] := by simp [fresh, graph.next_eq_nil a hnode]
      rw [hfresh, (order.perm (a :: met) []).eq_nil]
      rcases Nat.lt_or_eq_of_le (graph.unmet_le met a) with hlt | heq
      · exact Prod.Lex.left _ _ hlt
      · rw [heq]
        exact Prod.Lex.right _ (by simp)

variable {order : SetOrder α} {met stack : List α}

theorem drain_nil : graph.drain order met [] = met := by
  rw [drain]

theorem drain_cons :
    graph.drain order met (a :: stack) =
      if a ∈ met then graph.drain order met stack
      else graph.drain order (a :: met)
        (order.list (a :: met) (graph.fresh met a) ++ stack) := by
  rw [drain]

theorem mem_pushed : b ∈ order.list (a :: met) (graph.fresh met a) ↔ b ∈ graph.next a ∧ b ∉ a :: met := by
  rw [(order.perm _ _).mem_iff, mem_fresh]

/-! ## It meets what is reached, and nothing else -/

/-- What holds of the stack, of what was met, and along every edge holds of all that is met. -/
theorem drain_sound {P : α → Prop} (hedge : ∀ a b, P a → b ∈ graph.next a → P b)
    (hmet : ∀ a ∈ met, P a) (hstack : ∀ a ∈ stack, P a) :
    ∀ a ∈ graph.drain order met stack, P a := by
  induction met, stack using drain.induct graph order with
  | case1 met =>
    rw [drain_nil]
    exact hmet
  | case2 met a stack ha ih =>
    rw [drain_cons, if_pos ha]
    exact ih hmet fun b hb => hstack b (List.mem_cons_of_mem _ hb)
  | case3 met a stack ha ih =>
    rw [drain_cons, if_neg ha]
    have hhead : P a := hstack a List.mem_cons_self
    apply ih
    · intro b hb
      rcases List.mem_cons.1 hb with rfl | hb
      · exact hhead
      · exact hmet b hb
    · intro b hb
      rcases List.mem_append.1 hb with hb | hb
      · exact hedge a b hhead (mem_pushed.1 hb).1
      · exact hstack b (List.mem_cons_of_mem _ hb)

/-- What was met stays met. -/
theorem mem_drain_of_mem (h : a ∈ met) : a ∈ graph.drain order met stack := by
  induction met, stack using drain.induct graph order with
  | case1 met => rwa [drain_nil]
  | case2 met b stack hb ih =>
    rw [drain_cons, if_pos hb]
    exact ih h
  | case3 met b stack hb ih =>
    rw [drain_cons, if_neg hb]
    exact ih (List.mem_cons_of_mem _ h)

/-- **The invariant**: the successors of every node that was met are met or on the stack. -/
def Pushed (graph : Graph α) (met stack : List α) : Prop :=
  ∀ a ∈ met, ∀ b ∈ graph.next a, b ∈ met ∨ b ∈ stack

/-- The stack is met in the end, and so are the successors of what is met. -/
theorem drain_complete (order : SetOrder α) (h : graph.Pushed met stack) :
    (∀ a ∈ stack, a ∈ graph.drain order met stack) ∧
      ∀ a ∈ graph.drain order met stack, ∀ b ∈ graph.next a, b ∈ graph.drain order met stack := by
  induction met, stack using drain.induct graph order with
  | case1 met =>
    rw [drain_nil]
    exact ⟨by simp, fun a ha b hb => (h a ha b hb).resolve_right List.not_mem_nil⟩
  | case2 met a stack ha ih =>
    rw [drain_cons, if_pos ha]
    have hpushed : graph.Pushed met stack := by
      intro c hc b hb
      rcases h c hc b hb with hmet | hstack
      · exact .inl hmet
      · rcases List.mem_cons.1 hstack with rfl | hstack
        · exact .inl ha
        · exact .inr hstack
    obtain ⟨hall, hclosed⟩ := ih hpushed
    refine ⟨fun b hb => ?_, hclosed⟩
    rcases List.mem_cons.1 hb with rfl | hb
    · exact mem_drain_of_mem ha
    · exact hall b hb
  | case3 met a stack ha ih =>
    rw [drain_cons, if_neg ha]
    have hpushed : graph.Pushed (a :: met)
        (order.list (a :: met) (graph.fresh met a) ++ stack) := by
      intro c hc b hb
      by_cases hmet : b ∈ a :: met
      · exact .inl hmet
      · refine .inr (List.mem_append.2 ?_)
        rcases List.mem_cons.1 hc with rfl | hc
        · exact .inl (mem_pushed.2 ⟨hb, hmet⟩)
        · rcases h c hc b hb with hb | hb
          · exact absurd (List.mem_cons_of_mem _ hb) hmet
          · rcases List.mem_cons.1 hb with rfl | hb
            · exact absurd List.mem_cons_self hmet
            · exact .inr hb
    obtain ⟨hall, hclosed⟩ := ih hpushed
    refine ⟨fun b hb => ?_, hclosed⟩
    rcases List.mem_cons.1 hb with rfl | hb
    · exact mem_drain_of_mem List.mem_cons_self
    · exact hall b (List.mem_append_right _ hb)

/-- **The loop meets exactly what is reached.** -/
theorem mem_drain_iff : a ∈ graph.drain order [] start ↔ graph.Reached start a := by
  have hpushed : graph.Pushed [] start := by simp [Pushed]
  obtain ⟨hall, hclosed⟩ := drain_complete order hpushed
  constructor
  · exact drain_sound (fun a b ha hb => ha.edge hb) (by simp) (fun a ha => .of_mem ha) a
  · intro h
    exact h.induct hall fun a b _ ha hb => hclosed a ha b hb

/-- It meets no node twice. -/
theorem nodup_drain (h : met.Nodup) : (graph.drain order met stack).Nodup := by
  induction met, stack using drain.induct graph order with
  | case1 met => rwa [drain_nil]
  | case2 met a stack ha ih =>
    rw [drain_cons, if_pos ha]
    exact ih h
  | case3 met a stack ha ih =>
    rw [drain_cons, if_neg ha]
    exact ih (List.nodup_cons.2 ⟨ha, h⟩)

end Graph

end TradeStation.Foundations
