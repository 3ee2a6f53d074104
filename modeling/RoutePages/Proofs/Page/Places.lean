import RoutePages.Page.Template
import RoutePages.Proofs.Disk.Paths

/-!
# Where the files of pages lie

The directory of a page lies below the root of the pages, by the segments of the page. So do
its files, and so does each directory above it that is not above the root of the pages.
-/
namespace RoutePages

theorem IsSegment.isFileName {name : Text} (h : IsSegment name) : IsFileName name :=
  ⟨h.1, h.2.1, h.2.2.2⟩

namespace PagePath

variable {base : Location} {pagesRoot : FilePath}

/-- The directory of a page lies below the root of the pages, by the segments of the page. -/
theorem continues_directory (p : PagePath) (pagesRoot : FilePath) :
    pagesRoot.Continues (p.directory pagesRoot) p.segments :=
  FilePath.continues_foldl pagesRoot fun s hs => (p.valid s hs).isFileName

theorem plain (p : PagePath) : ∀ s ∈ p.segments, s ≠ "." ∧ s ≠ ".." :=
  fun s hs => (p.valid s hs).2.2.2

theorem location_directory (p : PagePath) :
    (p.directory pagesRoot).location base = pagesRoot.location base ++ p.segments :=
  (p.continues_directory pagesRoot).location base

end PagePath

namespace PageFile

theorem isSegment_name (f : PageFile) : IsSegment f.name := by
  cases f <;> exact ⟨by decide, by decide, by decide, by decide, by decide⟩

/-- A file of a page lies below the root of the pages. -/
theorem continues_path (f : PageFile) (plan : PagePlan) (pagesRoot : FilePath) :
    pagesRoot.Continues (f.path plan pagesRoot) (plan.page.segments ++ [f.name]) :=
  (plan.page.continues_directory pagesRoot).trans
    (FilePath.continues_name _ f.isSegment_name.isFileName)

theorem location_path (f : PageFile) (plan : PagePlan) (pagesRoot : FilePath) (base : Location) :
    (f.path plan pagesRoot).location base =
      pagesRoot.location base ++ (plan.page.segments ++ [f.name]) :=
  (f.continues_path plan pagesRoot).location base

theorem getLast?_path (f : PageFile) (plan : PagePlan) (pagesRoot : FilePath) :
    (f.path plan pagesRoot).text.getLast? ≠ some '/' := by
  rw [path, FilePath.getLast?_join _ f.isSegment_name.isFileName.head?_ne f.isSegment_name.1]
  cases f <;> decide

end PageFile
end RoutePages
