import Mathlib.Data.List.Basic

/-! # Trees with labels

A finite tree with any number of children at a node, the nodes of a tree breadth first, and an
attribute that is passed down from a node to its children.

* `mem_walk`: what the walk finds, one node at a time.
* `mem_annotated_iff`: the nodes with their attributes are the nodes of the walk.
* `annotated_induction`: what holds at the root and is passed on to the children holds at all
  nodes. -/

namespace Trueup.Lib

inductive LabelTree (κ : Type)
  | node (label : κ) (children : List (LabelTree κ))

namespace LabelTree

variable {κ σ : Type}

def label : LabelTree κ → κ
  | node label _ => label

def children : LabelTree κ → List (LabelTree κ)
  | node _ children => children

@[simp] theorem label_node (l : κ) (ts : List (LabelTree κ)) : (node l ts).label = l := rfl

@[simp] theorem children_node (l : κ) (ts : List (LabelTree κ)) : (node l ts).children = ts := rfl

/-- What holds at a node when it holds at its children holds at all nodes. -/
@[elab_as_elim]
theorem induct {P : LabelTree κ → Prop}
    (h : ∀ label children, (∀ child ∈ children, P child) → P (node label children)) : ∀ t, P t
  | node label children => h label children fun child _ => induct h child

/-! ### Breadth first -/

/-- The levels of two trees, next to each other. -/
def zipLevels : List (List (LabelTree κ)) → List (List (LabelTree κ)) → List (List (LabelTree κ))
  | [], levels => levels
  | levels, [] => levels
  | level :: rest, level' :: rest' => (level ++ level') :: zipLevels rest rest'

mutual

/-- The nodes of a tree, level by level. -/
def levels : LabelTree κ → List (List (LabelTree κ))
  | node label children => [node label children] :: levelsOf children

def levelsOf : List (LabelTree κ) → List (List (LabelTree κ))
  | [] => []
  | child :: rest => zipLevels (levels child) (levelsOf rest)

end

/-- The nodes of a tree, breadth first. -/
def walk (t : LabelTree κ) : List (LabelTree κ) := t.levels.flatten

theorem mem_zipLevels {t : LabelTree κ} : ∀ {left right : List (List (LabelTree κ))},
    t ∈ (zipLevels left right).flatten ↔ t ∈ left.flatten ∨ t ∈ right.flatten
  | [], right => by simp [zipLevels]
  | _ :: _, [] => by simp [zipLevels]
  | level :: rest, level' :: rest' => by
    rw [zipLevels, List.flatten_cons, List.flatten_cons, List.flatten_cons, List.mem_append,
      List.mem_append, List.mem_append, List.mem_append, mem_zipLevels]
    tauto

theorem mem_levelsOf {t : LabelTree κ} : ∀ {ts : List (LabelTree κ)},
    t ∈ (levelsOf ts).flatten ↔ ∃ child ∈ ts, t ∈ child.walk
  | [] => by simp [levelsOf]
  | child :: rest => by
    rw [levelsOf, mem_zipLevels, mem_levelsOf]
    simp [walk]

theorem mem_walk {t root : LabelTree κ} :
    t ∈ root.walk ↔ t = root ∨ ∃ child ∈ root.children, t ∈ child.walk := by
  obtain ⟨label, children⟩ := root
  rw [walk, levels, List.flatten_cons, List.mem_append, List.mem_singleton, mem_levelsOf,
    children_node]

theorem self_mem_walk (t : LabelTree κ) : t ∈ t.walk := mem_walk.mpr (Or.inl rfl)

theorem child_mem_walk {root parent child : LabelTree κ} (hparent : parent ∈ root.walk)
    (hchild : child ∈ parent.children) : child ∈ root.walk := by
  induction root using induct with
  | h label children ih =>
    rcases mem_walk.mp hparent with rfl | ⟨top, htop, hmem⟩
    · exact mem_walk.mpr (Or.inr ⟨child, hchild, self_mem_walk child⟩)
    · exact mem_walk.mpr (Or.inr ⟨top, htop, ih top htop hmem⟩)

/-! ### Attributes -/

section Annotated

-- `down s parent i` is the attribute of the child with index `i`
variable (down : σ → LabelTree κ → ℕ → σ)

mutual

/-- The nodes of a tree, each with its attribute, when `s` is the attribute of the root. -/
def annotated (s : σ) : LabelTree κ → List (σ × LabelTree κ)
  | node label children =>
    (s, node label children) :: annotatedOf (fun i => down s (node label children) i) 0 children

def annotatedOf (attr : ℕ → σ) (i : ℕ) : List (LabelTree κ) → List (σ × LabelTree κ)
  | [] => []
  | child :: rest => annotated (attr i) child ++ annotatedOf attr (i + 1) rest

end

variable {down}

theorem mem_annotatedOf {a : σ × LabelTree κ} {attr : ℕ → σ} : ∀ {ts : List (LabelTree κ)} {i : ℕ},
    a ∈ annotatedOf down attr i ts ↔
      ∃ j, ∃ child, ts[j]? = some child ∧ a ∈ annotated down (attr (i + j)) child
  | [], i => by simp [annotatedOf]
  | child :: rest, i => by
    rw [annotatedOf, List.mem_append, mem_annotatedOf]
    constructor
    · rintro (hchild | ⟨j, other, hget, hmem⟩)
      · exact ⟨0, child, rfl, hchild⟩
      · exact ⟨j + 1, other, hget, by rwa [show i + (j + 1) = i + 1 + j by omega]⟩
    · rintro ⟨_ | j, other, hget, hmem⟩
      · cases hget
        exact Or.inl hmem
      · exact Or.inr ⟨j, other, hget, by rwa [show i + 1 + j = i + (j + 1) by omega]⟩

theorem mem_annotated {s : σ} {a : σ × LabelTree κ} {root : LabelTree κ} :
    a ∈ annotated down s root ↔ a = (s, root) ∨
      ∃ i child, root.children[i]? = some child ∧ a ∈ annotated down (down s root i) child := by
  obtain ⟨label, children⟩ := root
  rw [annotated, List.mem_cons, mem_annotatedOf, children_node]
  simp only [Nat.zero_add]

theorem mem_annotated_iff {t root : LabelTree κ} {s : σ} :
    (∃ s', (s', t) ∈ annotated down s root) ↔ t ∈ root.walk := by
  induction root using induct generalizing s with
  | h label children ih =>
    rw [mem_walk]
    constructor
    · rintro ⟨s', hmem⟩
      rcases mem_annotated.mp hmem with hroot | ⟨i, child, hget, hchild⟩
      · cases hroot
        exact Or.inl rfl
      · have hmemChild := List.mem_of_getElem? hget
        exact Or.inr ⟨child, hmemChild, (ih child hmemChild).mp ⟨s', hchild⟩⟩
    · rintro (rfl | ⟨child, hmemChild, hwalk⟩)
      · exact ⟨s, mem_annotated.mpr (Or.inl rfl)⟩
      · obtain ⟨i, hget⟩ := List.getElem?_of_mem hmemChild
        obtain ⟨s', hchild⟩ := (ih child hmemChild).mpr hwalk
        exact ⟨s', mem_annotated.mpr (Or.inr ⟨i, child, hget, hchild⟩)⟩

/-- **The rule for attributes.** What holds at the root and is passed on from each node of the tree
to its children holds at all nodes. -/
theorem annotated_induction {P : σ → LabelTree κ → Prop} {s : σ} {root : LabelTree κ} (hroot : P s root)
    (hdown : ∀ s' parent i child, parent ∈ root.walk → P s' parent → parent.children[i]? = some child →
      P (down s' parent i) child) : ∀ a ∈ annotated down s root, P a.1 a.2 := by
  induction root using induct generalizing s with
  | h label children ih =>
    intro a ha
    rcases mem_annotated.mp ha with rfl | ⟨i, child, hget, hchild⟩
    · exact hroot
    · have hmemChild := List.mem_of_getElem? hget
      refine ih child hmemChild (hdown s _ i child (self_mem_walk _) hroot hget) ?_ a hchild
      intro s' parent j grandchild hparent
      exact hdown s' parent j grandchild (mem_walk.mpr (Or.inr ⟨child, hmemChild, hparent⟩))

end Annotated

end LabelTree

end Trueup.Lib
