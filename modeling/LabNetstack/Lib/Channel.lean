import Mathlib.Data.List.Forall2
import Mathlib.Data.List.Basic

/-!
# First-in first-out channels that lose and repeat

A channel is the list of messages in flight, oldest first. Two things can go wrong with it: one
message is lost, or one message is repeated in place. Nothing overtakes anything.

`Degrades` is the common consequence of both, and it is all that a safety argument needs: what
holds of every message, and every reflexive order along the channel, survives it. `lose` and
`repeatAt` are the two faults as functions of the position they hit.
-/

namespace Channel

variable {α β : Type*}

/-- Lose the message at position `i`. -/
def lose (i : ℕ) (l : List α) : List α := l.eraseIdx i

/-- Repeat the message at position `i`, right behind itself. -/
def repeatAt (i : ℕ) (l : List α) : List α := l.take (i + 1) ++ l.drop i

/-- `l'` is `l` after at most one fault. -/
inductive Degrades : List α → List α → Prop
  | refl (l : List α) : Degrades l l
  | lose (l₁ : List α) (x : α) (l₂ : List α) : Degrades (l₁ ++ x :: l₂) (l₁ ++ l₂)
  | repeat (l₁ : List α) (x : α) (l₂ : List α) : Degrades (l₁ ++ x :: l₂) (l₁ ++ x :: x :: l₂)

theorem degrades_lose (i : ℕ) (l : List α) : Degrades l (lose i l) := by
  rcases Nat.lt_or_ge i l.length with hi | hi
  · have h := Degrades.lose (l.take i) l[i] (l.drop (i + 1))
    rw [List.getElem_cons_drop, List.take_append_drop] at h
    rwa [lose, List.eraseIdx_eq_take_drop_succ]
  · rw [lose, List.eraseIdx_of_length_le hi]
    exact .refl l

theorem degrades_repeatAt (i : ℕ) (l : List α) : Degrades l (repeatAt i l) := by
  rcases Nat.lt_or_ge i l.length with hi | hi
  · have h := Degrades.repeat (l.take i) l[i] (l.drop (i + 1))
    rw [List.getElem_cons_drop, List.take_append_drop] at h
    rwa [repeatAt, ← List.take_append_getElem hi, List.append_assoc, List.singleton_append]
  · rw [repeatAt, List.take_of_length_le (by omega), List.drop_eq_nil_of_le hi, List.append_nil]
    exact .refl l

/-- Losing the oldest message is a fault like any other. -/
theorem degrades_tail (x : α) (l : List α) : Degrades (x :: l) l := .lose [] x l

namespace Degrades

variable {l l' : List α}

theorem mem (h : Degrades l l') {x : α} (hx : x ∈ l') : x ∈ l := by
  cases h with
  | refl => exact hx
  | lose l₁ y l₂ => grind
  | «repeat» l₁ y l₂ => grind

theorem forall_mem (h : Degrades l l') {p : α → Prop} (hp : ∀ x ∈ l, p x) : ∀ x ∈ l', p x :=
  fun x hx => hp x (h.mem hx)

theorem eq_nil (h : Degrades l l') (hl : l = []) : l' = [] :=
  List.eq_nil_iff_forall_not_mem.mpr fun x hx => by simpa [hl] using h.mem hx

/-- An order along the channel survives a fault; repetition needs it to be reflexive. -/
theorem pairwise (h : Degrades l l') {r : α → α → Prop} (hr : ∀ x, r x x)
    (hl : l.Pairwise r) : l'.Pairwise r := by
  cases h with
  | refl => exact hl
  | lose l₁ y l₂ => exact hl.sublist (List.Sublist.append_left (List.sublist_cons_self y l₂) l₁)
  | «repeat» l₁ y l₂ =>
    rw [List.pairwise_append, List.pairwise_cons] at hl ⊢
    obtain ⟨h₁, ⟨hy, h₂⟩, hcross⟩ := hl
    refine ⟨h₁, ⟨?_, List.pairwise_cons.mpr ⟨hy, h₂⟩⟩, ?_⟩
    · intro z hz
      rcases List.mem_cons.mp hz with rfl | hz
      · exact hr z
      · exact hy z hz
    · intro a ha z hz
      rcases List.mem_cons.mp hz with rfl | hz
      · exact hcross a ha z (List.mem_cons_self ..)
      · exact hcross a ha z hz

/-- Seen through a filter, one fault is at most one fault. -/
theorem filterMap (h : Degrades l l') (f : α → Option β) :
    Degrades (l.filterMap f) (l'.filterMap f) := by
  cases h with
  | refl => exact .refl _
  | lose l₁ y l₂ =>
    cases hy : f y with
    | none => simp only [List.filterMap_append, List.filterMap_cons_none hy]; exact .refl _
    | some z =>
      simp only [List.filterMap_append, List.filterMap_cons_some hy]
      exact .lose ..
  | «repeat» l₁ y l₂ =>
    cases hy : f y with
    | none => simp only [List.filterMap_append, List.filterMap_cons_none hy]; exact .refl _
    | some z =>
      simp only [List.filterMap_append, List.filterMap_cons_some hy]
      exact .repeat ..

/-- A fault hits one of two halves. -/
theorem of_append {l₁ l₂ t : List α} (h : Degrades (l₁ ++ l₂) t) :
    ∃ t₁ t₂, t = t₁ ++ t₂ ∧ Degrades l₁ t₁ ∧ Degrades l₂ t₂ := by
  generalize hl : l₁ ++ l₂ = l at h
  cases h with
  | refl => exact ⟨l₁, l₂, hl.symm, .refl _, .refl _⟩
  | lose s x s' =>
    rcases List.append_eq_append_iff.mp hl with ⟨u, rfl, hu⟩ | ⟨u, rfl, hu⟩
    · rw [hu]
      exact ⟨l₁, u ++ s', by rw [List.append_assoc], .refl _, .lose ..⟩
    · rcases List.cons_eq_append_iff.mp hu with ⟨rfl, rfl⟩ | ⟨u', rfl, rfl⟩
      · exact ⟨s, s', rfl, by rw [List.append_nil]; exact .refl _, .lose [] x s'⟩
      · exact ⟨s ++ u', l₂, by rw [List.append_assoc], .lose .., .refl _⟩
  | «repeat» s x s' =>
    rcases List.append_eq_append_iff.mp hl with ⟨u, rfl, hu⟩ | ⟨u, rfl, hu⟩
    · rw [hu]
      exact ⟨l₁, u ++ x :: x :: s', by rw [List.append_assoc], .refl _, .repeat ..⟩
    · rcases List.cons_eq_append_iff.mp hu with ⟨rfl, rfl⟩ | ⟨u', rfl, rfl⟩
      · exact ⟨s, x :: x :: s', rfl, by rw [List.append_nil]; exact .refl _, .repeat [] x s'⟩
      · exact ⟨s ++ x :: x :: u', l₂, by simp, .repeat .., .refl _⟩

end Degrades

/-! ### Two channels that carry related messages -/

variable {r : α → β → Prop} {l : List α} {m : List β}

/-- What one message decides about both channels alike, they agree on. -/
theorem exists_mem_iff {p : α → Prop} {q : β → Prop} (h : List.Forall₂ r l m)
    (hpq : ∀ a b, b ∈ m → r a b → (p a ↔ q b)) : (∃ a ∈ l, p a) ↔ ∃ b ∈ m, q b := by
  induction h with
  | nil => simp
  | @cons a b l m hab hrest ih =>
    have hrest' := ih fun a' b' hb' => hpq a' b' (List.mem_cons_of_mem _ hb')
    rw [List.exists_mem_cons_iff, List.exists_mem_cons_iff, hrest',
      hpq a b (List.mem_cons_self ..) hab]

theorem exists_related (h : List.Forall₂ r l m) {a : α} (ha : a ∈ l) : ∃ b ∈ m, r a b := by
  induction h with
  | nil => cases ha
  | @cons a' b l m hab _ ih =>
    rcases List.mem_cons.mp ha with rfl | ha
    · exact ⟨b, List.mem_cons_self .., hab⟩
    · obtain ⟨b', hb', hr⟩ := ih ha
      exact ⟨b', List.mem_cons_of_mem _ hb', hr⟩

theorem forall₂_replicate (n : ℕ) {a : α} {b : β} (h : r a b) :
    List.Forall₂ r (List.replicate n a) (List.replicate n b) := by
  induction n with
  | zero => exact .nil
  | succ n ih => exact .cons h ih

theorem forall₂_lose (i : ℕ) (h : List.Forall₂ r l m) :
    List.Forall₂ r (lose i l) (lose i m) := by
  rw [lose, lose, List.eraseIdx_eq_take_drop_succ, List.eraseIdx_eq_take_drop_succ]
  exact List.rel_append (List.forall₂_take i h) (List.forall₂_drop (i + 1) h)

theorem forall₂_repeatAt (i : ℕ) (h : List.Forall₂ r l m) :
    List.Forall₂ r (repeatAt i l) (repeatAt i m) :=
  List.rel_append (List.forall₂_take (i + 1) h) (List.forall₂_drop i h)

/-- What stands at one place of a channel has its counterpart in the other. -/
theorem forall₂_split {l₁ l₂ : List α} {x : α} (h : List.Forall₂ r (l₁ ++ x :: l₂) m) :
    ∃ m₁ y m₂, m = m₁ ++ y :: m₂ ∧ List.Forall₂ r l₁ m₁ ∧ r x y ∧ List.Forall₂ r l₂ m₂ := by
  have h₁ := List.forall₂_take l₁.length h
  have h₂ := List.forall₂_drop l₁.length h
  rw [List.take_left] at h₁
  rw [List.drop_left] at h₂
  obtain ⟨y, m₂, hxy, h₂, hm⟩ := List.forall₂_cons_left_iff.mp h₂
  exact ⟨m.take l₁.length, y, m₂, by rw [← hm, List.take_append_drop], h₁, hxy, h₂⟩

/-- A fault of one channel can happen to the other. -/
theorem Degrades.forall₂ {l' : List α} (hl : Degrades l l') (h : List.Forall₂ r l m) :
    ∃ m', Degrades m m' ∧ List.Forall₂ r l' m' := by
  cases hl with
  | refl => exact ⟨m, .refl m, h⟩
  | lose l₁ x l₂ =>
    obtain ⟨m₁, y, m₂, rfl, h₁, -, h₂⟩ := forall₂_split h
    exact ⟨m₁ ++ m₂, .lose .., List.rel_append h₁ h₂⟩
  | «repeat» l₁ x l₂ =>
    obtain ⟨m₁, y, m₂, rfl, h₁, hxy, h₂⟩ := forall₂_split h
    exact ⟨m₁ ++ y :: y :: m₂, .repeat .., List.rel_append h₁ (.cons hxy (.cons hxy h₂))⟩

end Channel
