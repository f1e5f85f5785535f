/-
  Proofs/Catalog.lean --- surveys of catalogs are finite and fail only as expected.

  The packages of a catalog depend on names that the catalog mentions (`confinedTo_mentioned`),
  and every question about them is answered, if only each script in the catalog can be judged
  (`reliable_of_sources`).  So what is shown of walks over finite graphs holds of a walk over
  any catalog.

  `Catalog.sample` is a small one in which dependencies are shared and lead back to the start.
-/
import EditionSurvey.Proofs.Loop
import EditionSurvey.Survey.Catalog

set_option autoImplicit false

namespace EditionSurvey

namespace Catalog

/-- The dependencies in a directory are those of a package of the catalog. -/
theorem exists_package_of_listing {catalog : Catalog} {options : Options} {directory : Path}
    {names : List String} (h : (catalog.survey options).listing directory = .ok (some names)) :
    ∃ name package manifest, (name, package) ∈ catalog.packages ∧
      CatalogPackage.manifest? package = some manifest ∧
      manifest.dependencyNames options.includePeer = names := by
  obtain ⟨manifest, hanswer, hnames⟩ := Survey.listing_eq_some_iff.mp h
  have hmanifest : catalog.manifestIn directory = .ok manifest := Except.ok.inj hanswer
  unfold manifestIn at hmanifest
  split at hmanifest
  · next found hfound =>
      obtain rfl := Except.ok.inj hmanifest
      obtain ⟨package, hpackage, hsource⟩ := Option.bind_eq_some_iff.mp hfound
      exact ⟨_, package, _, mem_of_lookup hpackage, hsource, hnames⟩
  · cases hmanifest

/-- A package of a catalog depends on names that the catalog mentions. -/
theorem dependencyNames_subset_mentioned {catalog : Catalog} {name : String}
    {package : CatalogPackage} {manifest : Manifest}
    (hpackage : (name, package) ∈ catalog.packages)
    (hmanifest : CatalogPackage.manifest? package = some manifest) (includePeer : Bool) :
    manifest.dependencyNames includePeer ⊆ catalog.mentioned := by
  obtain ⟨dependencies, hdependencies, rfl⟩ := Option.map_eq_some_iff.mp hmanifest
  intro other hother
  rw [mentioned, mem_inOrder, List.mem_flatMap]
  refine ⟨(name, package), hpackage, ?_⟩
  rw [Manifest.dependencyNames, mem_inOrder] at hother
  cases includePeer <;> simp_all

/-- All names that a survey of a catalog can come to are mentioned in the catalog. -/
theorem confinedTo_mentioned (catalog : Catalog) (options : Options) (start : Path) :
    (catalog.survey options).ConfinedTo start catalog.mentioned := by
  have hlisted : ∀ directory names,
      (catalog.survey options).listing directory = .ok (some names) →
        names ⊆ catalog.mentioned := by
    intro directory names hnames
    obtain ⟨name, package, manifest, hpackage, hmanifest, rfl⟩ :=
      exists_package_of_listing hnames
    exact dependencyNames_subset_mentioned hpackage hmanifest _
  exact ⟨hlisted start, fun _ _ directory names _ => hlisted directory names⟩

/-- A survey of a catalog fails only as expected if every script in the catalog can be judged. -/
theorem reliable_of_sources {catalog : Catalog} {options : Options}
    (h : ∀ entry ∈ catalog.packages, ∀ source ∈ entry.2.source,
      Script.validate source options.edition ≠ .error .templateWithoutHead) :
    (catalog.survey options).Reliable where
  manifest _ := ⟨_, rfl⟩
  resolve _ := ⟨_, rfl⟩
  locate _ := ⟨_, rfl⟩
  read _ := ⟨_, rfl⟩
  validate path source hread := by
    have hanswer : catalog.sourceAt path = .ok source := Except.ok.inj hread
    unfold sourceAt at hanswer
    split at hanswer
    · next found hfound =>
        obtain rfl := Except.ok.inj hanswer
        obtain ⟨package, hpackage, hsource⟩ := Option.bind_eq_some_iff.mp hfound
        exact h _ (mem_of_lookup hpackage) _ hsource
    · cases hanswer

/-! ## A small catalog -/

/-- The packages `left` and `right` share a dependency, `left` leads back to `app`, and nothing
is known of `ghost`. -/
def sample : Catalog where
  packages :=
    [("app", { dependencies := some ["right", "left", "ghost"] }),
      ("left", { dependencies := some ["shared", "app"] }),
      ("right", { dependencies := some ["shared"], entry := some "main.js" }),
      ("shared", { entry := some "main.js", source := some "let x" })]

theorem confinedTo_sample : (sample.survey {}).ConfinedTo (directoryOf "app") sample.mentioned :=
  confinedTo_mentioned sample {} _

theorem reliable_sample : (sample.survey {}).Reliable :=
  reliable_of_sources (by decide +kernel)

end Catalog

end EditionSurvey
