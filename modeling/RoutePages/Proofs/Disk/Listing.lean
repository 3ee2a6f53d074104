import RoutePages.Proofs.Disk.Plain

/-!
# What directories list

A directory lists exactly what stands in it, and nothing twice.
-/
namespace RoutePages.Disk

variable {d : Disk} {dir : Location} {name : Text} {kind : Kind}

/-- What a directory lists of what is on the disk. -/
theorem listed_iff (entry : Location × Item) :
    (match entry with
      | (place, item) => match place.getLast? with
        | some last => if place.dropLast = dir then some (last, item.kind) else none
        | none => none) = some (name, kind) ↔ entry.1 = dir ++ [name] ∧ entry.2.kind = kind := by
  obtain ⟨place, item⟩ := entry
  rcases List.eq_nil_or_concat place with rfl | ⟨front, last, rfl⟩
  · exact ⟨nofun, fun h => absurd h.1 (by simp)⟩
  · dsimp only
    rw [List.concat_eq_append, List.getLast?_concat, List.dropLast_concat]
    dsimp only
    split
    · rename_i hfront
      subst hfront
      rw [Option.some_inj, Prod.mk.injEq, List.append_right_inj, List.singleton_inj]
    · rename_i hfront
      exact ⟨nofun, fun h => absurd (List.append_inj' h.1 rfl).1 hfront⟩

/-- A directory lists exactly what stands in it. -/
theorem mem_entries :
    (name, kind) ∈ d.entries dir ↔ (d.item? (dir ++ [name])).map Item.kind = some kind := by
  have hne : dir ++ [name] ≠ [] := List.append_ne_nil_of_right_ne_nil _ (List.cons_ne_nil _ _)
  rw [Option.map_eq_some_iff, entries, List.mem_filterMap]
  constructor
  · rintro ⟨⟨place, item⟩, hitem, hlisted⟩
    obtain ⟨rfl, hkind⟩ := (listed_iff (place, item)).1 hlisted
    exact ⟨item, (mem_items_iff hne).1 hitem, hkind⟩
  · rintro ⟨item, hitem, hkind⟩
    exact ⟨_, (mem_items_iff hne).2 hitem, (listed_iff (_, item)).2 ⟨rfl, hkind⟩⟩

/-- A directory lists no name twice. -/
theorem entries_nodup (d : Disk) (dir : Location) : ((d.entries dir).map Prod.fst).Nodup := by
  have hplaces := List.pairwise_map.1 (List.nodup_iff_pairwise_ne.1 d.distinct)
  rw [List.nodup_iff_pairwise_ne, List.pairwise_map, entries, List.pairwise_filterMap]
  refine hplaces.imp fun hapart one hone other hother hsame => hapart ?_
  rw [((listed_iff _).1 hone).1, ((listed_iff _).1 hother).1, hsame]

/-- The names that a directory lists are names of files. -/
theorem isFileName_of_mem_entries (h : (name, kind) ∈ d.entries dir) : IsFileName name := by
  have hsome : (d.item? (dir ++ [name])).isSome = true := by
    rw [← Option.isSome_map, mem_entries.1 h]
    rfl
  exact d.isFileName hsome name (List.mem_append_right _ List.mem_cons_self)

end RoutePages.Disk
