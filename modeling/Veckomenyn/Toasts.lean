import Mathlib.Data.List.Nodup
import Veckomenyn.EveryStep

/-!
The toasts of the web client.

A new toast takes the place of the one with its id or comes last. What is over the cap is dropped,
the oldest toasts first and errors only when nothing else is left. Listeners are left out.
-/

namespace Veckomenyn.Toasts

open EveryStep

/-! ### Dropping the first elements of a kind -/

section

variable {α : Type} (p : α → Bool)

/-- The list without the first `k` elements of the kind. -/
def dropFirst : ℕ → List α → List α
  | 0, xs => xs
  | _ + 1, [] => []
  | k + 1, x :: xs => if p x then dropFirst k xs else x :: dropFirst (k + 1) xs

variable {p}

lemma dropFirst_cons_pos {k : ℕ} {x : α} {xs : List α} (h : p x = true) :
    dropFirst p (k + 1) (x :: xs) = dropFirst p k xs := by rw [dropFirst, if_pos h]

lemma dropFirst_cons_neg {k : ℕ} {x : α} {xs : List α} (h : p x = false) :
    dropFirst p (k + 1) (x :: xs) = x :: dropFirst p (k + 1) xs := by
  rw [dropFirst, if_neg (by simp [h])]

lemma dropFirst_sublist (k : ℕ) (xs : List α) : (dropFirst p k xs).Sublist xs := by
  induction xs generalizing k with
  | nil => cases k <;> exact List.Sublist.refl []
  | cons x xs ih =>
    cases k with
    | zero => exact List.Sublist.refl _
    | succ k =>
      cases hx : p x with
      | true =>
        rw [dropFirst_cons_pos hx]
        exact (ih k).cons x
      | false =>
        rw [dropFirst_cons_neg hx]
        exact (ih (k + 1)).cons_cons x

/-- Of the kind, the first ones are gone. -/
lemma filter_dropFirst (k : ℕ) (xs : List α) :
    (dropFirst p k xs).filter p = (xs.filter p).drop k := by
  induction xs generalizing k with
  | nil => cases k <;> rfl
  | cons x xs ih =>
    cases k with
    | zero => rfl
    | succ k =>
      cases hx : p x with
      | true => rw [dropFirst_cons_pos hx, ih, List.filter_cons_of_pos hx, List.drop_succ_cons]
      | false =>
        have hx' : ¬p x = true := by simp [hx]
        rw [dropFirst_cons_neg hx, List.filter_cons_of_neg hx', List.filter_cons_of_neg hx', ih]

/-- What is not of the kind stays. -/
lemma filter_not_dropFirst (k : ℕ) (xs : List α) :
    ((dropFirst p k xs).filter fun x => !p x) = xs.filter fun x => !p x := by
  induction xs generalizing k with
  | nil => cases k <;> rfl
  | cons x xs ih =>
    cases k with
    | zero => rfl
    | succ k =>
      cases hx : p x with
      | true => rw [dropFirst_cons_pos hx, ih, List.filter_cons_of_neg (by simp [hx])]
      | false =>
        have hstays (ys : List α) : (x :: ys).filter (fun x => !p x) =
            x :: ys.filter fun x => !p x := List.filter_cons_of_pos (by simp [hx])
        rw [dropFirst_cons_neg hx, hstays, hstays, ih]

end

/-! ### Toasts -/

inductive ToastVariant where
  | success
  | error
  | info
deriving DecidableEq

/-- `Action` is what a click may do. -/
structure Toast (Action : Type) where
  id : String
  variant : ToastVariant
  message : String
  action : Option Action
  duration : ℕ

structure ToastOptions (Action : Type) where
  action : Option Action := none
  duration : Option ℕ := none
  id : Option String := none

variable {Action : Type}

def maxVisible : ℕ := 3

def defaults : ToastVariant → ℕ
  | .success => 3000
  | .info => 3000
  | .error => 0

/-- The loop of `capQueue`, from the index `i` on. -/
def sweep (result : List (Toast Action)) (toDrop i : ℕ) : List (Toast Action) :=
  if h : i < result.length ∧ 0 < toDrop then
    if (result.get ⟨i, h.1⟩).variant ≠ .error then sweep (result.eraseIdx i) (toDrop - 1) i
    else sweep result toDrop (i + 1)
  else result
termination_by result.length - i
decreasing_by
  · rw [List.length_eraseIdx_of_lt h.1]
    omega
  · omega

def capQueue (next : List (Toast Action)) : List (Toast Action) :=
  if next.length ≤ maxVisible then next
  else
    let result := sweep next (next.length - maxVisible) 0
    if maxVisible < result.length then result.drop (result.length - maxVisible) else result

/-- The toasts, and the number of the next one without an id. -/
structure State (Action : Type) where
  toasts : List (Toast Action)
  nextID : ℕ

def item (s : State Action) (variant : ToastVariant) (message : String)
    (opts : ToastOptions Action) : Toast Action where
  id := opts.id.getD ("t" ++ toString s.nextID)
  variant := variant
  message := message
  action := opts.action
  duration := opts.duration.getD (defaults variant)

def add (s : State Action) (variant : ToastVariant) (message : String)
    (opts : ToastOptions Action) : State Action :=
  let new := item s variant message opts
  let nextID := if opts.id.isNone then s.nextID + 1 else s.nextID
  match s.toasts.findIdx? fun t => t.id = new.id with
  | some existing => ⟨s.toasts.set existing new, nextID⟩
  | none => ⟨capQueue (s.toasts ++ [new]), nextID⟩

def dismiss (s : State Action) (id : String) : State Action :=
  let next := s.toasts.filter fun t => t.id ≠ id
  if next.length = s.toasts.length then s else { s with toasts := next }

def clear (s : State Action) : State Action :=
  if s.toasts.length = 0 then s else { s with toasts := [] }

inductive Op (Action : Type) where
  | add (variant : ToastVariant) (message : String) (opts : ToastOptions Action)
  | dismiss (id : String)
  | clear

def State.step (s : State Action) : Op Action → State Action
  | .add variant message opts => add s variant message opts
  | .dismiss id => dismiss s id
  | .clear => clear s

def start : State Action := ⟨[], 1⟩

/-! ### The cap -/

def isError (t : Toast Action) : Bool := t.variant = .error

/-- What `capQueue` makes of a list: the newest toasts, an error only for want of others. -/
structure Capped (next result : List (Toast Action)) : Prop where
  sublist : result.Sublist next
  length : result.length = min next.length maxVisible
  errorsLast : result.filter isError ≠ next.filter isError → ∀ t ∈ result, isError t = true
  oldestErrors : result.filter isError <:+ next.filter isError
  oldestOthers : (result.filter fun t => !isError t) <:+ next.filter fun t => !isError t

/-- **The loop** drops the first toasts that are no errors: what stands before the index has been
looked at, and is all errors as long as there is something to drop. -/
lemma sweep_append (front rest : List (Toast Action)) (k : ℕ) :
    sweep (front ++ rest) k front.length = front ++ dropFirst (fun t => !isError t) k rest := by
  induction rest generalizing front k with
  | nil =>
    unfold sweep
    rw [dif_neg (by simp)]
    cases k <;> rfl
  | cons t rest ih =>
    cases k with
    | zero =>
      unfold sweep
      rw [dif_neg (by simp)]
      rfl
    | succ k =>
      have hi : front.length < (front ++ t :: rest).length ∧ 0 < k + 1 := by simp
      have hget : (front ++ t :: rest).get ⟨front.length, hi.1⟩ = t := by simp
      unfold sweep
      rw [dif_pos hi, hget]
      by_cases ht : t.variant = .error
      · have hstays : dropFirst (fun t => !isError t) (k + 1) (t :: rest) =
            t :: dropFirst (fun t => !isError t) (k + 1) rest :=
          dropFirst_cons_neg (by simp [isError, ht])
        have hnext := ih (front ++ [t]) (k + 1)
        rw [List.length_append, List.length_singleton, List.append_assoc, List.append_assoc,
          List.singleton_append, List.singleton_append] at hnext
        rw [if_neg (not_not.mpr ht), hnext, hstays]
      · have hgoes : dropFirst (fun t => !isError t) (k + 1) (t :: rest) =
            dropFirst (fun t => !isError t) k rest :=
          dropFirst_cons_pos (by simp [isError, ht])
        have herase : (front ++ t :: rest).eraseIdx front.length = front ++ rest := by
          rw [List.eraseIdx_append_of_length_le (Nat.le_refl _), Nat.sub_self,
            List.eraseIdx_cons_zero]
        rw [if_pos ht, herase, Nat.add_sub_cancel, ih, hgoes]

/-- What the loop leaves, by its two kinds. -/
lemma sweep_eq (next : List (Toast Action)) (k : ℕ) :
    sweep next k 0 = dropFirst (fun t => !isError t) k next := sweep_append [] next k

lemma filter_isError_dropFirst (k : ℕ) (next : List (Toast Action)) :
    (dropFirst (fun t => !isError t) k next).filter isError = next.filter isError := by
  have h := filter_not_dropFirst (p := fun t : Toast Action => !isError t) k next
  simpa only [Bool.not_not] using h

/-- **What the cap drops** are the oldest toasts that are no errors, then the oldest errors. -/
lemma capped (next : List (Toast Action)) : Capped next (capQueue next) := by
  by_cases hle : next.length ≤ maxVisible
  · rw [capQueue, if_pos hle]
    exact ⟨List.Sublist.refl _, by omega, fun h => absurd rfl h, List.suffix_refl _,
      List.suffix_refl _⟩
  let k := next.length - maxVisible
  let result := dropFirst (fun t => !isError t) k next
  have herrors : result.filter isError = next.filter isError := filter_isError_dropFirst k next
  have hothers : (result.filter fun t => !isError t) =
      (next.filter fun t => !isError t).drop k := filter_dropFirst k next
  have hsub : result.Sublist next := dropFirst_sublist k next
  have hlen (ts : List (Toast Action)) :
      ts.length = (ts.filter isError).length + (ts.filter fun t => !isError t).length :=
    List.length_eq_length_filter_add isError
  have hresult : result.length = (next.filter isError).length +
      ((next.filter fun t => !isError t).length - k) := by
    rw [hlen, herrors, hothers, List.length_drop]
  have hnext := hlen next
  have hcap : capQueue next =
      if maxVisible < result.length then result.drop (result.length - maxVisible) else result := by
    rw [capQueue, if_neg hle, sweep_eq]
  rw [hcap]
  by_cases hmany : k ≤ (next.filter fun t => !isError t).length
  · rw [if_neg (by omega)]
    exact ⟨hsub, by omega, fun h => absurd herrors h, herrors ▸ List.suffix_refl _,
      hothers ▸ List.drop_suffix _ _⟩
  · -- all others are gone, and errors are left alone
    have hnone : (result.filter fun t => !isError t) = [] := by
      rw [hothers]
      exact List.drop_eq_nil_of_le (by omega)
    have hall : ∀ t ∈ result, isError t = true := by
      intro t ht
      have := List.filter_eq_nil_iff.mp hnone t ht
      simpa using this
    have hdrop : ∀ t ∈ result.drop (result.length - maxVisible), isError t = true :=
      fun t ht => hall t (List.mem_of_mem_drop ht)
    rw [if_pos (by omega)]
    refine ⟨(List.drop_sublist _ _).trans hsub, ?_, fun _ => hdrop, ?_, ?_⟩
    · rw [List.length_drop]
      omega
    · rw [List.filter_eq_self.mpr hdrop, ← herrors, List.filter_eq_self.mpr hall]
      exact List.drop_suffix _ _
    · have hempty : ((result.drop (result.length - maxVisible)).filter fun t => !isError t) = [] :=
        List.filter_eq_nil_iff.mpr fun t ht => by simp [hdrop t ht]
      rw [hempty]
      exact List.nil_suffix

/-! ### Runs -/

/-- No more toasts than the cap, each id once. -/
structure Shows (s : State Action) : Prop where
  length : s.toasts.length ≤ maxVisible
  nodup : (s.toasts.map Toast.id).Nodup

/-- An error that was there, or has come, and is gone when the toast has been added leaves only
errors. -/
def Fair (s : State Action) : Op Action → Prop
  | .add variant message opts => ∀ t ∈ s.toasts ++ [item s variant message opts],
      isError t = true → t.id ∉ (add s variant message opts).toasts.map Toast.id →
        ∀ u ∈ (add s variant message opts).toasts, isError u = true
  | _ => True

variable {s : State Action}

/-- A toast with an id that is shown takes that one's place; another one comes last. -/
lemma add_cases (s : State Action) (variant : ToastVariant) (message : String)
    (opts : ToastOptions Action) :
    (∃ i, (s.toasts.map Toast.id)[i]? = some (item s variant message opts).id ∧
      (add s variant message opts).toasts = s.toasts.set i (item s variant message opts)) ∨
    (item s variant message opts).id ∉ s.toasts.map Toast.id ∧
      (add s variant message opts).toasts =
        capQueue (s.toasts ++ [item s variant message opts]) := by
  cases hfind : s.toasts.findIdx? fun t => t.id = (item s variant message opts).id with
  | some i =>
    refine Or.inl ⟨i, ?_, by simp only [add, hfind]⟩
    obtain ⟨hi, hid, -⟩ := List.findIdx?_eq_some_iff_getElem.mp hfind
    rw [List.getElem?_map, List.getElem?_eq_getElem hi, Option.map_some, of_decide_eq_true hid]
  | none =>
    refine Or.inr ⟨fun hmem => ?_, by simp only [add, hfind]⟩
    obtain ⟨t, ht, hid⟩ := List.mem_map.mp hmem
    have hne := List.findIdx?_eq_none_iff.mp hfind t ht
    exact of_decide_eq_false hne hid

lemma ids_set {ts : List (Toast Action)} {i : ℕ} {t : Toast Action}
    (hi : (ts.map Toast.id)[i]? = some t.id) : (ts.set i t).map Toast.id = ts.map Toast.id := by
  rw [List.map_set]
  obtain ⟨hlt, hget⟩ := List.getElem?_eq_some_iff.mp hi
  rw [← hget]
  exact List.set_getElem_self hlt

lemma shows_step (h : Shows s) (op : Op Action) : Shows (s.step op) := by
  cases op with
  | add variant message opts =>
    rcases add_cases s variant message opts with ⟨i, hi, hset⟩ | ⟨hnew, hcap⟩
    · refine ⟨?_, ?_⟩ <;> rw [State.step, hset]
      · rw [List.length_set]
        exact h.length
      · rw [ids_set hi]
        exact h.nodup
    · have hc := capped (s.toasts ++ [item s variant message opts])
      refine ⟨?_, ?_⟩ <;> rw [State.step, hcap]
      · rw [hc.length]
        exact Nat.min_le_right _ _
      · refine (hc.sublist.map Toast.id).nodup ?_
        rw [List.map_append, List.nodup_append]
        refine ⟨h.nodup, List.nodup_singleton _, fun a ha b hb hab => ?_⟩
        rw [List.map_singleton, List.mem_singleton] at hb
        exact hnew (hb ▸ hab ▸ ha)
  | dismiss id =>
    have hsub : (s.step (.dismiss id)).toasts.Sublist s.toasts := by
      simp only [State.step, dismiss]
      split_ifs
      · exact List.Sublist.refl _
      · exact List.filter_sublist
    exact ⟨Nat.le_trans hsub.length_le h.length, (hsub.map _).nodup h.nodup⟩
  | clear =>
    have hsub : (s.step .clear).toasts.Sublist s.toasts := by
      simp only [State.step, clear]
      split_ifs
      · exact List.Sublist.refl _
      · exact List.nil_sublist _
    exact ⟨Nat.le_trans hsub.length_le h.length, (hsub.map _).nodup h.nodup⟩

lemma fair_step (s : State Action) (op : Op Action) : Fair s op := by
  cases op with
  | add variant message opts =>
    intro t ht herror hgone
    rcases add_cases s variant message opts with ⟨i, hi, hset⟩ | ⟨-, hcap⟩
    · -- in its place the id is still shown
      rw [hset, ids_set hi] at hgone
      rcases List.mem_append.mp ht with ht | ht
      · exact absurd (List.mem_map_of_mem ht) hgone
      · rw [List.mem_singleton.mp ht] at hgone
        exact absurd (List.mem_of_getElem? hi) hgone
    · rw [hcap] at hgone ⊢
      refine (capped _).errorsLast fun hsame => hgone ?_
      have hkept := List.mem_filter.mpr ⟨ht, herror⟩
      rw [← hsame] at hkept
      exact List.mem_map_of_mem (List.mem_of_mem_filter hkept)
  | dismiss id => trivial
  | clear => trivial

/-- **The toasts**: whatever a list is capped to is its newest toasts with the errors kept longest,
and in every run no more toasts are shown than the cap, each id once, and no error gives way while
another toast stays. -/
theorem toasts_run (Action : Type) :
    (∀ next : List (Toast Action), Capped next (capQueue next)) ∧
    ∀ ops : List (Op Action), Always State.step Shows start ops ∧
      EachAllowed State.step Fair start ops := by
  refine ⟨capped, fun ops => ⟨?_, fun before op _ => fair_step _ op⟩⟩
  have hstart : Shows (start : State Action) := ⟨Nat.zero_le _, List.nodup_nil⟩
  exact always_of_step hstart fun s op h => shows_step h op

end Veckomenyn.Toasts
