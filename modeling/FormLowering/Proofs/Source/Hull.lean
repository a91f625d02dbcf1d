import Mathlib.Data.List.Perm.Basic
import Mathlib.Order.Bounds.Basic
import FormLowering.Source.Node

/-!
The hull of ranges. Merging is the join of a semilattice with the dummy range as its bottom, also
among empty and inverted ranges. So the span of a list is fixed by its items alone: it runs from
their least start to their greatest stop, in whatever order and whatever sublists they stand.
-/

namespace FormLowering

namespace Span

variable {s t : Span} {spans others : List Span}

/-! ## Two ranges -/

theorem merge_of_ne (hs : s ≠ dummy) (ht : t ≠ dummy) :
    s.merge t = ⟨min s.start t.start, max s.stop t.stop⟩ := by
  rw [merge, if_neg hs, if_neg ht]

/-- Only the dummy range starts and stops at zero. -/
theorem ne_dummy_iff : s ≠ dummy ↔ 0 < s.start ∨ 0 < s.stop := by
  obtain ⟨start, stop⟩ := s
  simp only [dummy, ne_eq, Span.mk.injEq]
  omega

/-- A merge is dummy only if both operands are. Of two others one stops after zero, and so does
their merge, or both start after zero, and so does it. -/
theorem merge_eq_dummy_iff : s.merge t = dummy ↔ s = dummy ∧ t = dummy := by
  by_cases hs : s = dummy
  · simp [hs]
  by_cases ht : t = dummy
  · simp [ht]
  have counts : s.merge t ≠ dummy := by
    have hs' := ne_dummy_iff.mp hs
    have ht' := ne_dummy_iff.mp ht
    rw [merge_of_ne hs ht, ne_dummy_iff]
    simp only
    omega
  exact iff_of_false counts fun both => hs both.1

theorem merge_ne_dummy (hs : s ≠ dummy) : s.merge t ≠ dummy :=
  fun merged => hs (merge_eq_dummy_iff.mp merged).1

theorem merge_comm (s t : Span) : s.merge t = t.merge s := by
  by_cases hs : s = dummy
  · rw [hs, dummy_merge, merge_dummy]
  by_cases ht : t = dummy
  · rw [ht, dummy_merge, merge_dummy]
  rw [merge_of_ne hs ht, merge_of_ne ht hs, min_comm, max_comm]

theorem merge_self (s : Span) : s.merge s = s := by
  by_cases hs : s = dummy
  · rw [hs, dummy_merge]
  rw [merge_of_ne hs hs, min_self, max_self]

theorem merge_assoc (s t u : Span) : (s.merge t).merge u = s.merge (t.merge u) := by
  by_cases hs : s = dummy
  · rw [hs, dummy_merge, dummy_merge]
  by_cases ht : t = dummy
  · rw [ht, dummy_merge, merge_dummy]
  by_cases hu : u = dummy
  · rw [hu, merge_dummy, merge_dummy]
  -- the inner merges count as well, so no operand is dropped on either side
  rw [merge_of_ne (merge_ne_dummy hs) hu, merge_of_ne hs (merge_ne_dummy ht), merge_of_ne hs ht,
    merge_of_ne ht hu]
  simp only [min_assoc, max_assoc]

instance : Std.Associative merge := ⟨merge_assoc⟩

instance : Std.Commutative merge := ⟨merge_comm⟩

/-! ## A list of ranges -/

theorem hull_cons_eq_merge (s : Span) (spans : List Span) :
    hull (s :: spans) = s.merge (hull spans) :=
  calc
    hull (s :: spans) = spans.foldl merge (s.merge dummy) := by rw [hull_cons, merge_dummy]
    _ = s.merge (hull spans) := List.foldl_assoc

theorem hull_append (spans others : List Span) :
    hull (spans ++ others) = (hull spans).merge (hull others) := by
  induction spans with
  | nil => rw [List.nil_append, hull_nil, dummy_merge]
  | cons s rest ih =>
    rw [List.cons_append, hull_cons_eq_merge, hull_cons_eq_merge, ih, merge_assoc]

theorem hull_perm (same : spans.Perm others) : hull spans = hull others := same.foldl_op_eq

theorem hull_eq_dummy_iff : hull spans = dummy ↔ ∀ s ∈ spans, s = dummy := by
  induction spans with
  | nil => exact iff_of_true rfl nofun
  | cons s rest ih => rw [hull_cons_eq_merge, merge_eq_dummy_iff, ih, List.forall_mem_cons]

/-- Where the ranges of a list that are not dummy have an edge. -/
def edges (edge : Span → Nat) (spans : List Span) : Set Nat :=
  {place | ∃ s ∈ spans, s ≠ dummy ∧ edge s = place}

theorem edges_dummy_cons (edge : Span → Nat) (spans : List Span) :
    edges edge (dummy :: spans) = edges edge spans := by
  simp [edges]

theorem edges_cons_of_ne (edge : Span → Nat) (hs : s ≠ dummy) (spans : List Span) :
    edges edge (s :: spans) = insert (edge s) (edges edge spans) := by
  ext place
  simp [edges, hs, eq_comm]

theorem edges_eq_empty (edge : Span → Nat) (vain : hull spans = dummy) :
    edges edge spans = ∅ := by
  rw [hull_eq_dummy_iff] at vain
  exact Set.eq_empty_of_forall_notMem fun _ ⟨s, mem, counts, _⟩ => counts (vain s mem)

/-- The hull lies tight: both of its edges are edges of ranges that it covers. -/
theorem hull_tight (counts : hull spans ≠ dummy) :
    IsLeast (edges start spans) (hull spans).start ∧
      IsGreatest (edges stop spans) (hull spans).stop := by
  induction spans with
  | nil => exact absurd rfl counts
  | cons s rest ih =>
    rw [hull_cons_eq_merge] at counts ⊢
    by_cases hs : s = dummy
    · rw [hs, dummy_merge] at counts
      rw [hs, dummy_merge, edges_dummy_cons, edges_dummy_cons]
      exact ih counts
    rw [edges_cons_of_ne start hs, edges_cons_of_ne stop hs]
    by_cases vain : hull rest = dummy
    · rw [vain, merge_dummy, edges_eq_empty start vain, edges_eq_empty stop vain]
      exact ⟨by simp, by simp⟩
    · rw [merge_of_ne hs vain]
      exact ⟨(ih vain).1.insert s.start, (ih vain).2.insert s.stop⟩

end Span

/-! ## Lists in lists -/

/-- A way to put nodes into lists: a node that stays as it is, or a list of such parts. -/
inductive Grouping where
  | item (node : Node)
  | list (parts : List Grouping)

namespace Grouping

mutual

/-- The nodes that were put into lists, from the first to the last. -/
def items : Grouping → List Node
  | .item node => [node]
  | .list parts => itemsOf parts

def itemsOf : List Grouping → List Node
  | [] => []
  | part :: rest => part.items ++ itemsOf rest

end

mutual

/-- The node that comes of it, where each list covers what was put into it. -/
def node : Grouping → Node
  | .item node => node
  | .list parts => .ofItems (nodes parts)

def nodes : List Grouping → List Node
  | [] => []
  | part :: rest => part.node :: nodes rest

end

mutual

/-- The lists between a node and the items in it leave no trace in its span. -/
theorem span_node : (grouping : Grouping) →
    grouping.node.span = Span.hull (grouping.items.map Node.span)
  | .item node => by rw [Grouping.node, items, List.map_singleton, Span.hull_cons, List.foldl_nil]
  | .list parts => by rw [Grouping.node, items, Node.span_ofItems, hull_nodes parts]

theorem hull_nodes : (parts : List Grouping) →
    Span.hull ((nodes parts).map Node.span) = Span.hull ((itemsOf parts).map Node.span)
  | [] => rfl
  | part :: rest => by
    rw [nodes, itemsOf, List.map_cons, List.map_append, Span.hull_cons_eq_merge, Span.hull_append,
      span_node part, hull_nodes rest]

end

end Grouping

/-- Merging is associative, commutative and idempotent, the dummy range is its unit, and no merge of
other ranges is dummy. So the span of a list is dummy if those of all its items are, and runs from
the least start to the greatest stop of the others if not; and it is the same for the items in any
order and in any lists of lists. -/
theorem Node.grouped_span_exact :
    (∀ s t u : Span, (s.merge t).merge u = s.merge (t.merge u)) ∧
    (∀ s t : Span, s.merge t = t.merge s) ∧
    (∀ s : Span, s.merge s = s) ∧
    (∀ s : Span, Span.dummy.merge s = s ∧ s.merge .dummy = s) ∧
    (∀ s t : Span, s.merge t = .dummy ↔ s = .dummy ∧ t = .dummy) ∧
    ∀ items : List Node,
      ((ofItems items).span = .dummy ↔ ∀ item ∈ items, item.span = .dummy) ∧
      ((ofItems items).span ≠ .dummy →
        IsLeast (Span.edges Span.start (items.map span)) (ofItems items).span.start ∧
        IsGreatest (Span.edges Span.stop (items.map span)) (ofItems items).span.stop) ∧
      ∀ grouping : Grouping, grouping.items.Perm items →
        grouping.node.span = (ofItems items).span := by
  refine ⟨Span.merge_assoc, Span.merge_comm, Span.merge_self,
    fun s => ⟨Span.dummy_merge s, Span.merge_dummy s⟩, fun _ _ => Span.merge_eq_dummy_iff,
    fun items => ?_⟩
  rw [span_ofItems]
  refine ⟨?_, Span.hull_tight, fun grouping same => ?_⟩
  · rw [Span.hull_eq_dummy_iff, List.forall_mem_map]
  · rw [grouping.span_node]
    exact Span.hull_perm (same.map span)

/-- A token without a place, an inverted one, an empty one and a list with a span of its own, put
into lists from the last to the first. -/
theorem Node.mixed_items_span :
    let token (span : Span) : Node := .atom ⟨.identifier, "x", span⟩
    let items := [token .dummy, token ⟨9, 2⟩, token ⟨4, 4⟩, .list [] ⟨3, 5⟩]
    let grouping : Grouping := .list [.list [.item (.list [] ⟨3, 5⟩), .list []],
      .list [.list [.item (token ⟨4, 4⟩)], .item (token ⟨9, 2⟩)], .item (token .dummy)]
    grouping.items.Perm items ∧ (ofItems items).span ≠ .dummy ∧
    grouping.node.span = (ofItems items).span ∧
    IsLeast (Span.edges Span.start (items.map span)) 3 ∧
    IsGreatest (Span.edges Span.stop (items.map span)) 5 := by
  intro token items grouping
  have reversed : grouping.items.Perm items := items.reverse_perm
  have counts : (ofItems items).span ≠ .dummy := by decide
  obtain ⟨-, -, -, -, -, spans⟩ := grouped_span_exact
  obtain ⟨-, tight, grouped⟩ := spans items
  exact ⟨reversed, counts, grouped grouping reversed, tight counts⟩

end FormLowering
