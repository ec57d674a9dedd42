import CamelLint.Proofs.Xml.RoundTrip

/-! Flattening as a walk. A place in a tree is the list of the child numbers that lead to
it, and places in lexicographic order stand in document order, a parent before all that is
in it. Flattening a tree after what is there already keeps that in front and adds one module
for each place, in this order: the tree's own module, then the modules of each child as
the child alone would give them. -/

namespace CamelLint.Xml.ModuleTree

def name : ModuleTree → String
  | node name _ _ => name

def properties : ModuleTree → List (String × String)
  | node _ properties _ => properties

def children : ModuleTree → List ModuleTree
  | node _ _ children => children

/-! ### Places -/

/-- The tree at a place, if the place is in the tree. -/
def subtreeAt? : ModuleTree → List Nat → Option ModuleTree
  | t, [] => some t
  | t, i :: place => t.children[i]?.bind (subtreeAt? · place)

mutual

/-- The places in a tree, in the order of the walk. -/
def places : ModuleTree → List (List Nat)
  | node _ _ children => [] :: placesFrom 0 children

/-- The places in children that are numbered from `i` on. -/
def placesFrom (i : Nat) : List ModuleTree → List (List Nat)
  | [] => []
  | t :: r => (places t).map (i :: ·) ++ placesFrom (i + 1) r

end

theorem mem_placesFrom_iff {i : Nat} {ts : List ModuleTree} {place : List Nat} :
    place ∈ placesFrom i ts ↔
      ∃ j inner t, place = (i + j) :: inner ∧ ts[j]? = some t ∧ inner ∈ t.places := by
  induction ts generalizing i with
  | nil => simp [placesFrom]
  | cons t r ih =>
    rw [placesFrom, List.mem_append, List.mem_map, ih]
    constructor
    · rintro (⟨inner, h, rfl⟩ | ⟨j, inner, s, rfl, hs, h⟩)
      · exact ⟨0, inner, t, rfl, rfl, h⟩
      · exact ⟨j + 1, inner, s, by rw [Nat.add_right_comm, Nat.add_assoc], hs, h⟩
    · rintro ⟨_ | j, inner, s, rfl, hs, h⟩
      · cases hs
        exact .inl ⟨inner, h, rfl⟩
      · exact .inr ⟨j, inner, s, by rw [Nat.add_right_comm, Nat.add_assoc], hs, h⟩

/-- The places that are walked are those in the tree. -/
theorem mem_places_iff {t : ModuleTree} {place : List Nat} :
    place ∈ t.places ↔ (t.subtreeAt? place).isSome := by
  induction place generalizing t with
  | nil =>
    cases t
    simp [places, subtreeAt?]
  | cons i inner ih =>
    obtain ⟨name, properties, children⟩ := t
    rw [places, List.mem_cons, mem_placesFrom_iff, subtreeAt?, ModuleTree.children]
    cases hc : children[i]? with
    | none =>
      simp only [reduceCtorEq, false_or, Option.bind_none, Option.isSome_none, iff_false]
      rintro ⟨j, _, s, hj, hs, -⟩
      obtain ⟨rfl, -⟩ := List.cons.inj hj
      rw [Nat.zero_add, hs] at hc
      cases hc
    | some c =>
      rw [Option.bind_some, ← ih]
      simp only [reduceCtorEq, false_or, List.cons.injEq, Nat.zero_add]
      constructor
      · rintro ⟨_, _, s, ⟨rfl, rfl⟩, hs, h⟩
        rw [hs] at hc
        cases hc
        exact h
      · exact fun h => ⟨i, inner, c, ⟨rfl, rfl⟩, hc, h⟩

mutual

theorem ascending_places : ∀ t : ModuleTree, t.places.Pairwise (· < ·)
  | node _ _ children => by
    rw [places, List.pairwise_cons]
    refine ⟨?_, ascending_placesFrom 0 children⟩
    intro place h
    obtain ⟨_, _, _, rfl, -⟩ := mem_placesFrom_iff.mp h
    exact List.nil_lt_cons _ _

theorem ascending_placesFrom (i : Nat) : ∀ ts, (placesFrom i ts).Pairwise (· < ·)
  | [] => by
    rw [placesFrom]
    exact .nil
  | t :: r => by
    rw [placesFrom, List.pairwise_append, List.pairwise_map]
    refine ⟨?_, ascending_placesFrom (i + 1) r, ?_⟩
    · exact (ascending_places t).imp List.cons_lt_cons_self.mpr
    · intro first hfirst later hlater
      obtain ⟨_, -, rfl⟩ := List.mem_map.mp hfirst
      obtain ⟨j, _, _, rfl, -⟩ := mem_placesFrom_iff.mp hlater
      exact List.cons_lt_cons_iff.mpr (.inl (by omega))

end

example : (node "a" [] [node "b" [] [node "c" [] []], node "d" [] []]).places =
    [[], [0], [0, 0], [1]] := by decide

/-! ### Nodes at their places -/

/-- The node at the place has this name and these properties. -/
def HasNodeAt (t : ModuleTree) (place : List Nat) (n : String × List (String × String)) : Prop :=
  ∃ s, t.subtreeAt? place = some s ∧ s.name = n.1 ∧ s.properties = n.2

mutual

theorem forall₂_hasNodeAt : ∀ t : ModuleTree, List.Forall₂ t.HasNodeAt t.places t.nodes
  | node name properties children => by
    rw [places, nodes]
    exact .cons ⟨_, rfl, rfl, rfl⟩ (forall₂_hasNodeAt_children _ [] children rfl)

/-- The children after those in `before` are numbered from its length on. -/
theorem forall₂_hasNodeAt_children (t : ModuleTree) (before : List ModuleTree) :
    ∀ ts, t.children = before ++ ts →
      List.Forall₂ t.HasNodeAt (placesFrom before.length ts) (nodesAll ts)
  | [], _ => by
    rw [placesFrom, nodesAll]
    exact .nil
  | s :: r, h => by
    rw [placesFrom, nodesAll]
    have hs : t.children[before.length]? = some s := by simp [h]
    have hr : t.children = (before ++ [s]) ++ r := by simp [h]
    have hrest := forall₂_hasNodeAt_children t (before ++ [s]) r hr
    rw [List.length_append, List.length_singleton] at hrest
    refine List.rel_append (List.forall₂_map_left_iff.mpr ?_) hrest
    refine (forall₂_hasNodeAt s).imp ?_
    rintro place n ⟨u, hu, hn⟩
    exact ⟨u, by rw [subtreeAt?, hs, Option.bind_some, hu], hn⟩

end

/-! ### The walk -/

theorem flattenInto_eq_append (out : List Module) (t : ModuleTree) :
    flattenInto out t = out ++ t.flatten := by
  rw [flattenInto_eq, flatten_eq]

theorem nodesAll_eq_flatten (ts : List ModuleTree) : nodesAll ts = (ts.map nodes).flatten := by
  induction ts with
  | nil => rw [nodesAll, List.map_nil, List.flatten_nil]
  | cons t r ih => rw [nodesAll, ih, List.map_cons, List.flatten_cons]

theorem flatten_eq_cons (t : ModuleTree) :
    t.flatten = moduleOf (t.name, t.properties) :: (t.children.map flatten).flatten := by
  obtain ⟨name, properties, children⟩ := t
  have hblocks : children.map flatten = (children.map nodes).map (List.map moduleOf) := by
    rw [List.map_map]
    exact List.map_congr_left fun t _ => flatten_eq t
  rw [flatten_eq, nodes, List.map_cons, nodesAll_eq_flatten, List.map_flatten, ModuleTree.children,
    hblocks]
  rfl

/-- What is there stays in front. What is added is the tree's own module and then, one after
another, what each child alone would give, so that there is one module for each place, in
lexicographic order, with the name and the last values of the properties of just the node
there. -/
theorem flattenInto_walk (out : List Module) (t : ModuleTree) :
    ∃ added, flattenInto out t = out ++ added ∧
      (∃ own : Module, own.Records t.name t.properties ∧
        added = own :: (t.children.map (flattenInto [])).flatten) ∧
      (∀ place, place ∈ t.places ↔ (t.subtreeAt? place).isSome) ∧
      t.places.Pairwise (· < ·) ∧
      List.Forall₂ (fun place m => ∃ s, t.subtreeAt? place = some s ∧
        Module.Records m s.name s.properties) t.places added := by
  have hown : (moduleOf (t.name, t.properties)).Records t.name t.properties := records_moduleOf _
  refine ⟨t.flatten, flattenInto_eq_append out t, ⟨_, hown, flatten_eq_cons t⟩,
    fun _ => mem_places_iff, ascending_places t, ?_⟩
  rw [flatten_eq, List.forall₂_map_right_iff]
  refine (forall₂_hasNodeAt t).imp ?_
  rintro place n ⟨s, hs, hname, hproperties⟩
  refine ⟨s, hs, ?_⟩
  rw [hname, hproperties]
  exact records_moduleOf n

end CamelLint.Xml.ModuleTree
