/-
This file is about binary heaps in an array, as `container/heap` keeps them. An element
is added at the end and moved up, and the first one is taken out by moving the last one
to its place and from there down. Elements are compared by a key, so two elements may
have the same one; which of them is taken out first is then a matter of their places.

Moving an element is verified by what is true of all edges of the tree but those at the
place of the element. The heap itself carries the order of its edges.
-/

import Mathlib

section

variable {Element Key : Type} [LinearOrder Key] (key : Element → Key)

namespace Heap

/-- `Less` on two places. -/
def less (h : Array Element) (i j : Nat) : Bool :=
  match h[i]?, h[j]? with
  | some first, some second => key first < key second
  | _, _ => false

/-- `up`: the element of a place changes places with its parent while it is less. -/
def up (h : Array Element) (j : Nat) : Array Element :=
  if (j - 1) / 2 = j then h
  else if less key h j ((j - 1) / 2) then up (h.swapIfInBounds ((j - 1) / 2) j) ((j - 1) / 2)
  else h
termination_by j
decreasing_by omega

/-- The least child of a place, the first one if both have the same key. -/
def child (h : Array Element) (i n : Nat) : Nat :=
  if 2 * i + 2 < n ∧ less key h (2 * i + 2) (2 * i + 1) then 2 * i + 2 else 2 * i + 1

theorem child_cases (h : Array Element) (i n : Nat) :
    child key h i n = 2 * i + 1 ∨ child key h i n = 2 * i + 2 ∧ 2 * i + 2 < n := by
  unfold child
  split
  next second => exact .inr ⟨rfl, second.1⟩
  · exact .inl rfl

/-- `down`: the element of a place changes places with its least child while that is less. -/
def down (h : Array Element) (i n : Nat) : Array Element :=
  if n ≤ 2 * i + 1 then h
  else if less key h (child key h i n) i then
    down (h.swapIfInBounds i (child key h i n)) (child key h i n) n
  else h
termination_by n - i
decreasing_by
  rcases child_cases key h i n with first | second <;> omega

/-! ### Comparing places -/

section Places

variable {h : Array Element} {i j k n : Nat}

theorem getElem?_swap (first : i < h.size) (second : j < h.size) (k : Nat) :
    (h.swapIfInBounds i j)[k]? = h[Equiv.swap i j k]? := by
  rw [Array.swapIfInBounds_def, dif_pos first, dif_pos second, Array.getElem?_swap,
    Equiv.swap_apply_def]
  by_cases atSecond : j = k
  · subst atSecond
    by_cases same : j = i
    · subst same
      rw [if_pos rfl, if_pos rfl, Array.getElem?_eq_getElem]
    · rw [if_pos rfl, if_neg same, if_pos rfl, Array.getElem?_eq_getElem]
  · rw [if_neg atSecond]
    by_cases atFirst : i = k
    · rw [if_pos atFirst, if_pos atFirst.symm, Array.getElem?_eq_getElem]
    · rw [if_neg atFirst, if_neg (Ne.symm atFirst), if_neg (Ne.symm atSecond)]

theorem size_swap (h : Array Element) (i j : Nat) : (h.swapIfInBounds i j).size = h.size :=
  Array.size_swapIfInBounds

theorem swap_perm (h : Array Element) (i j : Nat) : (h.swapIfInBounds i j).Perm h := by
  unfold Array.swapIfInBounds
  split
  · split
    · exact Array.swap_perm _ _
    · exact .rfl
  · exact .rfl

/-- The element of the first place has no greater key than that of the second. -/
def AtMost (h : Array Element) (i j : Nat) : Prop :=
  ∀ first second, h[i]? = some first → h[j]? = some second → key first ≤ key second

variable {key}

theorem AtMost.refl (h : Array Element) (i : Nat) : AtMost key h i i := by
  intro first second atFirst atSecond
  rw [Option.some.inj (atFirst.symm.trans atSecond)]

theorem AtMost.trans (middle : j < h.size) (first : AtMost key h i j)
    (second : AtMost key h j k) : AtMost key h i k := fun lower upper atLower atUpper =>
  le_trans (first lower _ atLower (Array.getElem?_eq_getElem middle))
    (second _ upper (Array.getElem?_eq_getElem middle) atUpper)

theorem AtMost.of_less (lower : less key h i j = true) : AtMost key h i j := by
  intro first second atFirst atSecond
  unfold less at lower
  rw [atFirst, atSecond] at lower
  exact le_of_lt (of_decide_eq_true lower)

theorem AtMost.of_not_less (higher : ¬less key h i j = true) : AtMost key h j i := by
  intro first second atFirst atSecond
  unfold less at higher
  rw [atFirst, atSecond] at higher
  exact le_of_not_gt fun lower => higher (decide_eq_true lower)

theorem atMost_swap (first : i < h.size) (second : j < h.size) (place other : Nat) :
    AtMost key (h.swapIfInBounds i j) place other ↔
      AtMost key h (Equiv.swap i j place) (Equiv.swap i j other) := by
  unfold AtMost
  rw [getElem?_swap first second, getElem?_swap first second]

/-- The least child is in order with both. -/
theorem atMost_child (nonroot : 0 < k) (inside : k < n)
    (parent : (k - 1) / 2 = i) : AtMost key h (child key h i n) k := by
  have which : k = 2 * i + 1 ∨ k = 2 * i + 2 := by omega
  unfold child
  by_cases second : 2 * i + 2 < n ∧ less key h (2 * i + 2) (2 * i + 1) = true
  · rw [if_pos second]
    rcases which with rfl | rfl
    · exact .of_less second.2
    · exact .refl _ _
  · rw [if_neg second]
    rcases which with rfl | rfl
    · exact .refl _ _
    · exact .of_not_less fun lower => second ⟨inside, lower⟩

end Places

/-! ### Order -/

/-- Every element of the first places is in order with its parent. -/
def Ordered (n : Nat) (h : Array Element) : Prop :=
  ∀ k, 0 < k → k < n → AtMost key h ((k - 1) / 2) k

/-- The only edge that may be out of order is the one above the place, and the edges below the place
would be in order with the parent in its place. -/
structure UpReady (h : Array Element) (j : Nat) : Prop where
  edges : ∀ k, 0 < k → k < h.size → k ≠ j → AtMost key h ((k - 1) / 2) k
  across : ∀ k, 0 < k → k < h.size → (k - 1) / 2 = j → 0 < j → AtMost key h ((j - 1) / 2) k

/-- The only edges that may be out of order are those below the place, and they would be in order
with the parent in its place. -/
structure DownReady (n : Nat) (h : Array Element) (i : Nat) : Prop where
  edges : ∀ k, 0 < k → k < n → (k - 1) / 2 ≠ i → AtMost key h ((k - 1) / 2) k
  across : ∀ k, 0 < k → k < n → (k - 1) / 2 = i → 0 < i → AtMost key h ((i - 1) / 2) k

variable {key} {h : Array Element} {i j n : Nat}

theorem UpReady.swap (ready : UpReady key h j) (nonroot : 0 < j) (inside : j < h.size)
    (lower : less key h j ((j - 1) / 2) = true) :
    UpReady key (h.swapIfInBounds ((j - 1) / 2) j) ((j - 1) / 2) := by
  have parentInside : (j - 1) / 2 < h.size := by omega
  constructor
  · intro k positive small other
    rw [size_swap] at small
    rw [atMost_swap parentInside inside]
    by_cases atPlace : k = j
    · rw [atPlace, Equiv.swap_apply_left, Equiv.swap_apply_right]
      exact .of_less lower
    · rw [Equiv.swap_apply_of_ne_of_ne other atPlace]
      by_cases below : (k - 1) / 2 = j
      · rw [below, Equiv.swap_apply_right]
        exact ready.across k positive small below nonroot
      · by_cases beside : (k - 1) / 2 = (j - 1) / 2
        · rw [beside, Equiv.swap_apply_left]
          refine AtMost.trans parentInside (.of_less lower) ?_
          rw [← beside]
          exact ready.edges k positive small atPlace
        · rw [Equiv.swap_apply_of_ne_of_ne beside below]
          exact ready.edges k positive small atPlace
  · intro k positive small below parentNonroot
    rw [size_swap] at small
    have grandparent : AtMost key h (((j - 1) / 2 - 1) / 2) ((j - 1) / 2) :=
      ready.edges _ parentNonroot parentInside (by omega)
    rw [atMost_swap parentInside inside,
      Equiv.swap_apply_of_ne_of_ne (show ((j - 1) / 2 - 1) / 2 ≠ (j - 1) / 2 by omega) (by omega)]
    by_cases atPlace : k = j
    · rw [atPlace, Equiv.swap_apply_right]
      exact grandparent
    · rw [Equiv.swap_apply_of_ne_of_ne (by omega) atPlace]
      refine grandparent.trans parentInside ?_
      rw [← below]
      exact ready.edges k positive small atPlace

theorem ordered_up (ready : UpReady key h j) (inside : j < h.size) :
    Ordered key h.size (up key h j) := by
  fun_induction up key h j with
  | case1 h j root => exact fun k positive small => ready.edges k positive small (by omega)
  | case2 h j inner lower ih =>
    have next := ih (ready.swap (by omega) inside lower) (by rw [size_swap]; omega)
    rwa [size_swap] at next
  | case3 h j inner higher =>
    intro k positive small
    by_cases atPlace : k = j
    · rw [atPlace]
      exact .of_not_less higher
    · exact ready.edges k positive small atPlace

theorem DownReady.swap (ready : DownReady key n h i) (inner : 2 * i + 1 < n) (fits : n ≤ h.size)
    (lower : less key h (child key h i n) i = true) :
    DownReady key n (h.swapIfInBounds i (child key h i n)) (child key h i n) := by
  have least := fun k => @atMost_child _ _ _ key h i k n
  have position := child_cases key h i n
  generalize child key h i n = c at lower least position
  have parent : (c - 1) / 2 = i := by omega
  have childInside : c < h.size := by omega
  have inside : i < h.size := by omega
  constructor
  · intro k positive small other
    rw [atMost_swap inside childInside]
    by_cases below : (k - 1) / 2 = i
    · rw [below, Equiv.swap_apply_left]
      by_cases atChild : k = c
      · rw [atChild, Equiv.swap_apply_right]
        exact .of_less lower
      · rw [Equiv.swap_apply_of_ne_of_ne (by omega) atChild]
        exact least k positive small below
    · rw [Equiv.swap_apply_of_ne_of_ne below other]
      by_cases atPlace : k = i
      · subst atPlace
        rw [Equiv.swap_apply_left]
        exact ready.across c (by omega) (by omega) parent positive
      · rw [Equiv.swap_apply_of_ne_of_ne atPlace (by rintro rfl; exact below parent)]
        exact ready.edges k positive small below
  · intro k positive small below _
    rw [atMost_swap inside childInside, parent, Equiv.swap_apply_left,
      Equiv.swap_apply_of_ne_of_ne (by omega) (by omega), ← below]
    exact ready.edges k positive small (by omega)

theorem ordered_down (ready : DownReady key n h i) (fits : n ≤ h.size) :
    Ordered key n (down key h i n) := by
  fun_induction down key h i n with
  | case1 h i leaf => exact fun k positive small => ready.edges k positive small (by omega)
  | case2 h i inner lower ih =>
    refine ih (ready.swap (by omega) fits lower) ?_
    rw [size_swap]
    exact fits
  | case3 h i inner higher =>
    have position := child_cases key h i n
    intro k positive small
    by_cases below : (k - 1) / 2 = i
    · rw [below]
      exact AtMost.trans (by omega) (.of_not_less higher) (atMost_child positive small below)
    · exact ready.edges k positive small below

theorem up_perm (h : Array Element) (j : Nat) : (up key h j).Perm h := by
  fun_induction up key h j with
  | case1 | case3 => exact .rfl
  | case2 _ _ _ _ ih => exact ih.trans (swap_perm _ _ _)

theorem down_perm (h : Array Element) (i n : Nat) : (down key h i n).Perm h := by
  fun_induction down key h i n with
  | case1 | case3 => exact .rfl
  | case2 _ _ _ _ ih => exact ih.trans (swap_perm _ _ _)

/-- The places from the bound on are left alone. -/
theorem down_getElem? (h : Array Element) (i : Nat) (fits : n ≤ h.size) {k : Nat}
    (outside : n ≤ k) : (down key h i n)[k]? = h[k]? := by
  fun_induction down key h i n with
  | case1 | case3 => rfl
  | case2 h i inner lower ih =>
    have position := child_cases key h i n
    rw [ih (by rw [size_swap]; exact fits), getElem?_swap (by omega) (by omega),
      Equiv.swap_apply_of_ne_of_ne (by omega) (by omega)]

theorem Ordered.root (ordered : Ordered key n h) (fits : n ≤ h.size) (k : Nat) (inside : k < n) :
    AtMost key h 0 k := by
  induction k using Nat.strongRecOn with
  | ind k ih =>
    rcases Nat.eq_zero_or_pos k with rfl | positive
    · exact .refl _ _
    · exact (ih ((k - 1) / 2) (by omega) (by omega)).trans (by omega) (ordered k positive inside)

end Heap

/-- An array whose elements are in order with their parents. -/
structure Heap where
  entries : Array Element
  ordered : Heap.Ordered key entries.size entries

namespace Heap

variable {key}

def toList (heap : Heap key) : List Element := heap.entries.toList

def size (heap : Heap key) : Nat := heap.entries.size

variable (key) in
def empty : Heap key := ⟨#[], fun _ _ inside => absurd inside (Nat.not_lt_zero _)⟩

theorem upReady_push (heap : Heap key) (element : Element) :
    UpReady key (heap.entries.push element) heap.entries.size := by
  have old : ∀ k, k < heap.entries.size →
      (heap.entries.push element)[k]? = heap.entries[k]? := fun k small => by
    rw [Array.getElem?_push, if_neg (Nat.ne_of_lt small)]
  constructor
  · intro k positive small other first second
    rw [Array.size_push] at small
    rw [old _ (by omega), old _ (by omega)]
    exact heap.ordered k positive (by omega) first second
  · intro k positive small below
    rw [Array.size_push] at small
    omega

def push (heap : Heap key) (element : Element) : Heap key where
  entries := up key (heap.entries.push element) heap.entries.size
  ordered := by
    have ordered := ordered_up (upReady_push heap element) (by rw [Array.size_push]; omega)
    rwa [(up_perm _ _).size_eq]

theorem push_perm (heap : Heap key) (element : Element) :
    (heap.push element).toList.Perm (element :: heap.toList) := by
  have moved : (up key (heap.entries.push element) heap.entries.size).toList.Perm
      (heap.entries.push element).toList := (up_perm _ _).toList
  rw [Array.toList_push] at moved
  exact moved.trans (List.perm_append_singleton _ _)

theorem mem_push {heap : Heap key} {element other : Element} :
    other ∈ (heap.push element).toList ↔ other = element ∨ other ∈ heap.toList := by
  rw [(push_perm heap element).mem_iff, List.mem_cons]

theorem size_push (heap : Heap key) (element : Element) :
    (heap.push element).size = heap.size + 1 :=
  (push_perm heap element).length_eq

/-- The array after the moves of `heap.Pop`, with the first element at its end. -/
def sunk (heap : Heap key) : Array Element :=
  down key (heap.entries.swapIfInBounds 0 (heap.entries.size - 1)) 0 (heap.entries.size - 1)

theorem downReady_swap (heap : Heap key) :
    DownReady key (heap.entries.size - 1)
      (heap.entries.swapIfInBounds 0 (heap.entries.size - 1)) 0 := by
  constructor
  · intro k positive small other
    rw [atMost_swap (by omega) (by omega), Equiv.swap_apply_of_ne_of_ne other (by omega),
      Equiv.swap_apply_of_ne_of_ne (by omega) (by omega)]
    exact heap.ordered k positive (by omega)
  · exact fun _ _ _ _ root => absurd root (Nat.lt_irrefl _)

theorem size_sunk (heap : Heap key) : heap.sunk.size = heap.entries.size := by
  rw [sunk, (down_perm _ _ _).size_eq, size_swap]

/-- `heap.Pop`, which panics on an empty heap. -/
def pop (heap : Heap key) : Option (Element × Heap key) :=
  heap.sunk.back?.map fun element =>
    (element,
      { entries := heap.sunk.pop
        ordered := by
          have ordered := ordered_down (downReady_swap heap)
            (by rw [size_swap]; exact Nat.sub_le _ _)
          intro k positive small first second
          rw [Array.size_pop, size_sunk] at small
          rw [Array.getElem?_pop, Array.getElem?_pop, size_sunk, if_pos small, if_pos (by omega)]
          exact ordered k positive small first second })

section Pop

variable {heap after : Heap key} {element : Element}

section

variable (popped : heap.pop = some (element, after))

include popped

theorem sunk_of_pop : heap.sunk.back? = some element ∧ after.entries = heap.sunk.pop := by
  obtain ⟨last, back, same⟩ := Option.map_eq_some_iff.mp popped
  cases same
  exact ⟨back, rfl⟩

theorem pop_perm : heap.toList.Perm (element :: after.toList) := by
  obtain ⟨back, rest⟩ := sunk_of_pop popped
  have sunk : heap.sunk.toList.Perm heap.toList :=
    ((down_perm _ _ _).trans (swap_perm _ _ _)).toList
  have last : heap.sunk.toList = after.toList ++ [element] := by
    rw [← Array.getLast?_toList] at back
    obtain ⟨front, whole⟩ := List.getLast?_eq_some_iff.mp back
    rw [toList, rest, Array.toList_pop, whole, List.dropLast_concat]
  rw [last] at sunk
  exact sunk.symm.trans (List.perm_append_singleton _ _)

theorem mem_of_pop {other : Element} :
    other ∈ heap.toList ↔ other = element ∨ other ∈ after.toList := by
  rw [(pop_perm popped).mem_iff, List.mem_cons]

theorem size_of_pop : heap.size = after.size + 1 :=
  (pop_perm popped).length_eq

/-- What is taken out has the least key. -/
theorem pop_least {other : Element} (member : other ∈ heap.toList) : key element ≤ key other := by
  obtain ⟨back, -⟩ := sunk_of_pop popped
  obtain ⟨k, atPlace⟩ := List.mem_iff_getElem?.mp member
  rw [toList, Array.getElem?_toList] at atPlace
  have inside := (Array.getElem?_eq_some_iff.mp atPlace).1
  rw [Array.back?_eq_getElem?, size_sunk, sunk, down_getElem? _ _
    (by rw [size_swap]; omega) (Nat.le_refl _), getElem?_swap (by omega) (by omega), Equiv.swap_apply_right] at back
  exact heap.ordered.root (Nat.le_refl _) k inside element other back atPlace

end

end Pop

end Heap

end
