import RoutePages.Project.Starter
import RoutePages.Proofs.Disk.Listing
import RoutePages.Proofs.Host.Effect
import RoutePages.Proofs.Text.Split

/-!
# How deep a walk goes

Each name makes a path longer, and a path that is too long cannot be listed. So a walk ends before
the bound on its depth is reached, whatever is put into the tree in the meantime.
-/
namespace RoutePages

open World Disk

theorem FilePath.size_join {name : Text} (dir : FilePath) (h : IsFileName name) :
    Text.size dir.text < Text.size (dir.join name).text := by
  have hname : Text.size name ≠ 0 := fun hzero => h.1 (Text.size_eq_zero hzero)
  rcases join_relative dir h.head?_ne with ⟨hdir, hjoin⟩ | ⟨front, ⟨hdir, -⟩ | hdir, hjoin⟩
  · rw [hjoin, hdir]
    exact Nat.pos_of_ne_zero hname
  · have hslash : 0 < Char.utf8Size '/' := Char.utf8Size_pos _
    rw [hjoin, hdir, Text.size_append, Text.size_cons]
    omega
  · rw [hjoin, hdir, Text.size_append, Text.size_append, Text.size_cons, Text.size_cons,
      Text.size_nil]
    omega

variable {target : FilePath} {title : Text}

/-- The paths of what is in a directory are longer than its own. -/
theorem size_child {d : Disk} {dir : Location} {met : Met} {child : Text × Kind}
    (h : child ∈ d.entries dir) :
    Text.size met.path.text < Text.size (met.child child.1 child.2).path.text :=
  FilePath.size_join met.path (isFileName_of_mem_entries h)

/-- The bound on the depth plays no part, if it is beyond what the length of a path allows. -/
theorem copyTree_room {room more : Nat} {met : Met} {w : World} (hmore : room ≤ more)
    (hroom : longestPath < room + Text.size met.path.text) :
    w.run (copyTree target title (room + 1) met) = w.run (copyTree target title (more + 1) met) := by
  induction room using Nat.strongRecOn generalizing more met w with
  | ind room ih =>
    unfold copyTree
    cases met.kind with
    | file => rfl
    | directory =>
      refine run_bind_congr rfl fun listed w₁ hlist => ?_
      cases hlist
      refine run_bind_congr rfl fun _ w₂ hmake => ?_
      dsimp only
      split
      · rfl
      · rename_i entries hlisted
        obtain ⟨place, hplace, -, hentries⟩ := list_eq_ok hlisted
        have hsize := (checkText_eq_ok.1 (place_eq_ok_iff.1 hplace).1.text).2.2
        obtain ⟨rest, rfl⟩ : ∃ rest, room = rest + 1 := ⟨room - 1, by omega⟩
        obtain ⟨next, rfl⟩ : ∃ next, more = next + 1 := ⟨more - 1, by omega⟩
        refine run_bind_congr (run_mapM_congr fun child hchild w => ?_) fun _ _ _ => rfl
        have hlonger : Text.size met.path.text < Text.size (met.child child.1 child.2).path.text :=
          size_child (hentries ▸ (sortBy_perm _ _).mem_iff.1 hchild)
        exact ih rest (Nat.lt_succ_self rest) (by omega) (by omega)

end RoutePages
