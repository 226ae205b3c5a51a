import Mathlib.Algebra.Order.Group.Multiset
import Veckomenyn.Rows

/-!
A plan without its database: a period, and the days its dinners lie on.

This is what the date edits are for. Each edit is an operation on the period and the
multiset of days, and the invariant of the planner is that a plan has one dinner a day.
-/

namespace Veckomenyn.Planning

open Rows

structure Plan where
  start : ℤ
  finish : ℤ
  days : Multiset ℤ

namespace Plan

/-- One dinner on each day of the period and none outside. -/
def Complete (p : Plan) : Prop := p.start ≤ p.finish ∧ p.days = (span p.start p.finish : List ℤ)

/-- The dinners one a day from `s` on, the period as long as it was. -/
def moveTo (p : Plan) (s : ℤ) : Plan :=
  ⟨s, p.finish + (s - p.start), (span s (s + p.days.card - 1) : List ℤ)⟩

def cut (p : Plan) (e : ℤ) : Plan := ⟨p.start, e, p.days.filter (· ≤ e)⟩

def extend (p : Plan) (e : ℤ) : Plan := ⟨p.start, e, p.days + (span (p.finish + 1) e : List ℤ)⟩

/-- A slot for each day of the period that has none. -/
def pad (p : Plan) : Plan :=
  ⟨p.start, p.finish, p.days + ((span p.start p.finish).filter (· ∉ p.days) : List ℤ)⟩

variable {p : Plan}

lemma Complete.card (h : p.Complete) : (p.days.card : ℤ) = p.finish - p.start + 1 := by
  obtain ⟨h1, h2⟩ := h
  rw [h2, Multiset.coe_card, length_span]
  omega

/-- Complete is one dinner for each day of the period, counted day by day. -/
theorem complete_iff : p.Complete ↔ p.start ≤ p.finish ∧
    (∀ x, p.start ≤ x → x ≤ p.finish → p.days.count x = 1) ∧
    ∀ x ∈ p.days, p.start ≤ x ∧ x ≤ p.finish := by
  refine and_congr_right fun _ => ?_
  constructor
  · intro h
    rw [h]
    refine ⟨fun x h1 h2 => ?_, fun x hx => mem_span.mp hx⟩
    rw [Multiset.coe_count]
    exact List.count_eq_one_of_mem (nodup_span _ _) (mem_span.mpr ⟨h1, h2⟩)
  · rintro ⟨h1, h2⟩
    ext x
    rw [Multiset.coe_count]
    by_cases hx : p.start ≤ x ∧ x ≤ p.finish
    · rw [h1 x hx.1 hx.2, List.count_eq_one_of_mem (nodup_span _ _) (mem_span.mpr hx)]
    · rw [Multiset.count_eq_zero_of_notMem fun hm => hx (h2 x hm),
        List.count_eq_zero_of_not_mem fun hm => hx (mem_span.mp hm)]

/-- A complete plan stays complete when it moves. -/
theorem complete_moveTo (h : p.Complete) (s : ℤ) : (p.moveTo s).Complete := by
  have hc := h.card
  refine ⟨?_, ?_⟩
  · have := h.1
    simp only [moveTo]
    omega
  · simp only [moveTo]
    congr 2
    omega

theorem complete_cut (h : p.Complete) {e : ℤ} (h1 : p.start ≤ e) (h2 : e ≤ p.finish) :
    (p.cut e).Complete := by
  refine ⟨h1, ?_⟩
  simp only [cut]
  rw [h.2, Multiset.filter_coe, Multiset.coe_eq_coe]
  refine (List.perm_ext_iff_of_nodup ((nodup_span _ _).filter _) (nodup_span _ _)).mpr fun x => ?_
  simp only [List.mem_filter, mem_span, decide_eq_true_eq]
  omega

theorem complete_extend (h : p.Complete) {e : ℤ} (he : p.finish ≤ e) : (p.extend e).Complete := by
  have h1 := h.1
  refine ⟨le_trans h1 he, ?_⟩
  simp only [extend]
  rw [h.2, Multiset.coe_add, Multiset.coe_eq_coe]
  exact span_append_perm (by omega) he

/-- Packing no more dinners than the period has days, and padding the rest, completes a plan. -/
theorem complete_pad (h : p.start ≤ p.finish)
    (hn : (p.days.card : ℤ) ≤ p.finish - p.start + 1) :
    (pad ⟨p.start, p.finish, (span p.start (p.start + p.days.card - 1) : List ℤ)⟩).Complete := by
  refine ⟨h, ?_⟩
  simp only [pad]
  rw [Multiset.coe_add, Multiset.coe_eq_coe]
  refine (List.perm_ext_iff_of_nodup ?_ (nodup_span _ _)).mpr fun x => ?_
  · refine List.nodup_append.mpr ⟨nodup_span _ _, (nodup_span _ _).filter _, ?_⟩
    rintro x hx y hy rfl
    rw [List.mem_filter] at hy
    simp [hx] at hy
  · simp only [List.mem_append, List.mem_filter, mem_span, Multiset.mem_coe, decide_eq_true_eq]
    omega

end Plan

end Veckomenyn.Planning
