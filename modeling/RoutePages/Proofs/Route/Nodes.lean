import RoutePages.Edit.Rewrite

/-!
# The entries of a tree

A tree of entries as a list, each entry before those below it.
-/
namespace RoutePages

mutual

/-- An entry and the entries below it. -/
def Entry.nodes : Entry → List Entry
  | .mk name path component table service cover children span directives =>
    .mk name path component table service cover children span directives ::
      Entry.allNodes children

def Entry.allNodes : List Entry → List Entry
  | [] => []
  | e :: rest => e.nodes ++ Entry.allNodes rest

end

namespace Rewrite

mutual

theorem ownDirectives_eq : (e : Entry) → ownDirectives e = e.nodes.map Entry.directives
  | .mk name path component table service cover children span directives => by
    rw [ownDirectives, Entry.nodes, List.map_cons, directivesOf_eq children]

/-- A rewrite reaches the directives of every entry of the tree. -/
theorem directivesOf_eq : (entries : List Entry) →
    directivesOf entries = (Entry.allNodes entries).map Entry.directives
  | [] => rfl
  | e :: rest => by
    rw [directivesOf, Entry.allNodes, List.map_append, ownDirectives_eq e, directivesOf_eq rest]

end

end Rewrite
end RoutePages
