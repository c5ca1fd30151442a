import Fragboard.Storage.FileTree

/-!
# The places to which paths lead

A path names its place by itself: `FilePath.place` follows its route from the
working directory and asks no tree.  What a tree decides is only whether the way
is there.  Since nothing removes a directory, a way that was there once stays.
-/

namespace Fragboard.Storage

open FileTree (above)

/-- Where a component leads from a directory. -/
def Location.follow (location : Location) : Component → Location
  | .root => [.root]
  | .here => location
  | .up => above location
  | .name name => location ++ [.name name]

/-- The place to which a path leads from the working directory. -/
def FilePath.place (path : FilePath) : Location :=
  path.route.foldl Location.follow []

theorem exists_of_bind_ok {ε α β : Type} {first : Except ε α}
    {next : α → Except ε β} {result : β}
    (succeeded : (first >>= next) = .ok result) :
    ∃ value, first = .ok value ∧ next value = .ok result := by
  cases first with
  | error failure => contradiction
  | ok value => exact ⟨value, rfl, succeeded⟩

namespace FileTree

theorem step_ok {tree : FileTree} {location next : Location}
    {component : Component} (stepped : tree.step location component = .ok next) :
    tree.isDirectory location = true ∧ next = location.follow component := by
  unfold step at stepped
  split at stepped
  · next directory =>
      refine ⟨directory, ?_⟩
      cases component with
      | name name =>
          dsimp only at stepped
          split at stepped
          · contradiction
          · exact (Except.ok.inj stepped).symm
      | _ => exact (Except.ok.inj stepped).symm
  · contradiction

theorem walk_cons_ok {tree : FileTree} {location goal : Location}
    {component : Component} {rest : List Component}
    (walked : tree.walk location (component :: rest) = .ok goal) :
    ∃ next, tree.step location component = .ok next ∧
      (tree.node? next).isSome = true ∧ tree.walk next rest = .ok goal := by
  obtain ⟨next, stepped, later⟩ := exists_of_bind_ok walked
  split at later
  · next stands => exact ⟨next, stepped, stands, later⟩
  · contradiction

theorem walk_ok {tree : FileTree} {location goal : Location}
    {components : List Component}
    (walked : tree.walk location components = .ok goal) :
    goal = components.foldl Location.follow location := by
  induction components generalizing location with
  | nil => exact (Except.ok.inj walked).symm
  | cons component rest ih =>
      obtain ⟨next, stepped, _, later⟩ := walk_cons_ok walked
      rw [List.foldl_cons, ← (step_ok stepped).2]
      exact ih later

theorem route_ok {path : FilePath} {components : List Component}
    (routed : route path = .ok components) : components = path.route := by
  unfold route at routed
  split at routed
  · contradiction
  · split at routed
    · contradiction
    · exact (Except.ok.inj routed).symm

theorem target_ok {tree : FileTree} {path : FilePath} {location : Location}
    (found : tree.target path = .ok location) :
    ∃ components last parent, path.route = components ++ [last] ∧
      route path = .ok (components ++ [last]) ∧
      tree.walk [] components = .ok parent ∧
      tree.step parent last = .ok location := by
  obtain ⟨all, routed, found⟩ := exists_of_bind_ok found
  rcases List.eq_nil_or_concat all with rfl | ⟨components, last, rfl⟩
  · contradiction
  · rw [List.concat_eq_append] at routed found
    rw [List.getLast?_concat, List.dropLast_concat] at found
    obtain ⟨parent, walked, stepped⟩ := exists_of_bind_ok found
    exact ⟨components, last, parent, (route_ok routed).symm, routed, walked,
      stepped⟩

theorem target_eq_place {tree : FileTree} {path : FilePath}
    {location : Location} (found : tree.target path = .ok location) :
    location = path.place := by
  obtain ⟨components, last, parent, all, _, walked, stepped⟩ := target_ok found
  rw [FilePath.place, all, List.foldl_append, ← walk_ok walked]
  exact (step_ok stepped).2

theorem directory_of_walk {tree : FileTree} {location goal : Location}
    {components : List Component}
    (walked : tree.walk location components = .ok goal)
    (directory : tree.isDirectory goal = true) :
    tree.isDirectory location = true := by
  cases components with
  | nil => rwa [Except.ok.inj walked]
  | cons component rest =>
      obtain ⟨next, stepped, _⟩ := walk_cons_ok walked
      exact (step_ok stepped).1

/-- Every directory of one tree is one of the other. -/
def DirectoriesStay (before after : FileTree) : Prop :=
  ∀ location, before.isDirectory location = true →
    after.isDirectory location = true

section Stay

variable {before after : FileTree} (stay : before.DirectoriesStay after)

include stay

theorem step_of_stay {location next : Location} {component : Component}
    (stepped : before.step location component = .ok next) :
    after.step location component = .ok next := by
  have directory := (step_ok stepped).1
  unfold step at stepped ⊢
  rw [if_pos directory] at stepped
  rwa [if_pos (stay location directory)]

/-- A way to a directory passes through directories only. -/
theorem walk_of_stay {location goal : Location} {components : List Component}
    (walked : before.walk location components = .ok goal)
    (directory : before.isDirectory goal = true) :
    after.walk location components = .ok goal := by
  induction components generalizing location with
  | nil => exact walked
  | cons component rest ih =>
      obtain ⟨next, stepped, _, later⟩ := walk_cons_ok walked
      have stands : (after.node? next).isSome = true := by
        have kept := stay next (directory_of_walk later directory)
        rw [isDirectory, beq_iff_eq] at kept
        rw [kept]
        rfl
      simp only [walk, step_of_stay stay stepped, bind, Except.bind, stands,
        if_true]
      exact ih later

theorem target_of_stay {path : FilePath} {location : Location}
    (found : before.target path = .ok location) :
    after.target path = .ok location := by
  obtain ⟨components, last, parent, _, routed, walked, stepped⟩ :=
    target_ok found
  have directory := (step_ok stepped).1
  simp only [target, routed, bind, Except.bind, List.getLast?_concat,
    List.dropLast_concat, walk_of_stay stay walked directory]
  exact step_of_stay stay stepped

end Stay

end FileTree

end Fragboard.Storage
