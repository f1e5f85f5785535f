/-
  Proofs/Peers.lean --- what it adds to look at what users have to bring along.

  Whether a survey looks at the peers of packages changes which names a directory lists, and
  nothing else: with them each directory lists at least what it lists without.  A verdict comes
  from the own entry of a name, in whatever order names are visited.  So a survey with peers has
  all verdicts of the survey without them (`peers_only_add`).
-/
import EditionSurvey.Proofs.Reach
import EditionSurvey.Proofs.Termination

set_option autoImplicit false

namespace EditionSurvey

/-- The same options, with or without a look at peers. -/
def Options.withPeers (options : Options) (includePeer : Bool) : Options :=
  { options with includePeer := includePeer }

/-- The same survey, with or without a look at peers. -/
def Survey.withPeers (survey : Survey) (includePeer : Bool) : Survey :=
  { survey with options := survey.options.withPeers includePeer }

/-- All verdicts of a store are in another one. -/
structure Store.Within (first second : Store) : Prop where
  /-- a name has the same verdict, the reason included -/
  verdict : ∀ name verdict, first.verdict? name = some verdict →
    second.verdict? name = some verdict
  /-- what fails still fails -/
  failed : ∀ edition, (Report.ofStore first edition).passed = false →
    (Report.ofStore second edition).passed = false
  /-- what passes with more passes with less -/
  passed : ∀ edition, (Report.ofStore second edition).passed = true →
    (Report.ofStore first edition).passed = true

theorem Store.Within.of_verdict {first second : Store}
    (h : ∀ name verdict, first.verdict? name = some verdict →
      second.verdict? name = some verdict) : first.Within second := by
  have hpassed : ∀ edition, (Report.ofStore second edition).passed = true →
      (Report.ofStore first edition).passed = true := by
    intro edition hsecond
    rw [Report.passed_ofStore_iff, List.eq_nil_iff_forall_not_mem] at hsecond ⊢
    intro name hname
    rw [mem_namesIn_iff, get?, Option.map_eq_some_iff] at hname
    obtain ⟨verdict, hverdict, hstate⟩ := hname
    refine hsecond name (mem_namesIn_iff.mpr ?_)
    rw [get?, h name verdict hverdict, Option.map_some, hstate]
  refine ⟨h, fun edition hfirst => ?_, hpassed⟩
  rw [← Bool.not_eq_true] at hfirst ⊢
  exact fun hsecond => hfirst (hpassed edition hsecond)

namespace Survey

/-! ## With more edges -/

variable {survey : Survey}

/-- With peers a directory lists all that it lists without, and it lists nothing if it has no
manifest. -/
theorem listing_withPeers {directory : Path} {listed : Option (List String)}
    (h : (survey.withPeers false).listing directory = .ok listed) :
    ∃ more, (survey.withPeers true).listing directory = .ok more ∧
      (listed = none → more = none) ∧
      ∀ names, listed = some names → ∃ others, more = some others ∧ names ⊆ others := by
  have hlisting : ∀ includePeer, (survey.withPeers includePeer).listing directory =
      (survey.surroundings.manifest directory).result.map fun answer =>
        answer.toOption.map (·.dependencyNames includePeer) := fun _ => rfl
  rw [hlisting] at h ⊢
  rcases hanswer : (survey.surroundings.manifest directory).result with
    fault | failure | manifest
  all_goals rw [hanswer] at h
  · cases h
  · obtain rfl := Except.ok.inj h
    exact ⟨none, rfl, fun _ => rfl, by simp [Except.toOption]⟩
  · obtain rfl := Except.ok.inj h
    refine ⟨some (manifest.dependencyNames true), rfl, by simp [Except.toOption], ?_⟩
    intro names hnames
    obtain rfl := Option.some.inj hnames
    exact ⟨_, rfl, dependencyNames_subset_true manifest false⟩

theorem Reached.withPeers {known : List String} {start : Path} {name : String}
    (h : (survey.withPeers false).Reached known start name) :
    (survey.withPeers true).Reached known start name := by
  induction h with
  | direct listed mem =>
      obtain ⟨_, hmore, _, hnames⟩ := listing_withPeers listed
      obtain ⟨others, rfl, hsubset⟩ := hnames _ rfl
      exact .direct hmore (hsubset mem)
  | onward _ new unusable located listed mem ih =>
      obtain ⟨_, hmore, _, hnames⟩ := listing_withPeers listed
      obtain ⟨others, rfl, hsubset⟩ := hnames _ rfl
      -- peers have no part in a finding or in a directory, so these carry over as they are
      exact .onward ih new unusable located hmore (hsubset mem)

/-! ## Whole surveys -/

/-- A walk with peers has all verdicts of the walk without. -/
theorem within_of_walk {fuel more : Nat} {root : String} {start : Path} {depth : Int}
    {p q r : Progress}
    (hwithout : ((survey.withPeers false).walk fuel root start depth).on p = (.ok (), q))
    (hwith : ((survey.withPeers true).walk more root start depth).on p = (.ok (), r)) :
    q.store.Within r.store := by
  obtain ⟨_, _, hwalks⟩ := exists_walks_of_walk hwithout
  obtain ⟨_, _, hothers⟩ := exists_walks_of_walk hwith
  obtain ⟨listed, hlisted⟩ := hwalks.exists_listing
  obtain ⟨listedMore, hlistedMore, hnone, hsome⟩ := listing_withPeers hlisted
  refine .of_verdict fun name verdict hverdict => ?_
  cases listed with
  | none =>
      obtain rfl := hnone rfl
      rw [hwalks.store_of_unlisted hlisted] at hverdict
      rw [hothers.store_of_unlisted hlistedMore]
      exact hverdict
  | some names =>
      obtain ⟨others, rfl, _⟩ := hsome names rfl
      rw [(hwalks.explored hlisted).verdict?_eq_some_iff] at hverdict
      rw [(hothers.explored hlistedMore).verdict?_eq_some_iff]
      exact hverdict.imp_right fun ⟨hnew, hreached, hfinding⟩ =>
        ⟨hnew, hreached.withPeers, hfinding⟩

theorem survey_withPeers (tree : FileTree) (options : Options) (includePeer : Bool) :
    tree.survey (options.withPeers includePeer) = (tree.survey options).withPeers includePeer := rfl

/-- Where a survey starts, and what it says of its start, does not depend on peers. -/
theorem startPackage_withPeers (tree : FileTree) (options : Options) (includePeer : Bool) :
    startPackage tree (options.withPeers includePeer) = startPackage tree options := rfl

theorem store_noteResult (options : Options) (p : Progress) :
    ((noteResult options).on p).2.store = p.store := rfl

/-- A survey of a package that yields is a start, and a walk that yields with the same store. -/
theorem exists_walk_of_checkPackage {tree : FileTree} {options : Options} {p q : Progress}
    {name : String} (h : (checkPackage tree options).on p = (.ok name, q)) :
    ∃ directory start last, (startPackage tree options).on p = (.ok (name, directory), start) ∧
      ((tree.survey options).walk (stepsFor tree.dependencyNames.length) name directory 1).on
        start = (.ok (), last) ∧ q.store = last.store := by
  obtain ⟨directory, start, last, hstart, hwalk, hnoted⟩ := exists_of_checkPackage_ok h
  refine ⟨directory, start, last, hstart, hwalk, ?_⟩
  rw [← store_noteResult options last, hnoted]

/-- A walk with peers has all verdicts of the walk without, each with its reason, whatever the
graph is and whatever verdicts there are before; and so has the survey of a package in a file
tree.  So what fails without peers fails with them. -/
theorem peers_only_add :
    (∀ (survey : Survey) (fuel more : Nat) (root : String) (start : Path) (depth : Int)
        (p q r : Progress),
      ((survey.withPeers false).walk fuel root start depth).on p = (.ok (), q) →
        ((survey.withPeers true).walk more root start depth).on p = (.ok (), r) →
          q.store.Within r.store) ∧
      ∀ (tree : FileTree) (options : Options) (name other : String) (p q r : Progress),
        (checkPackage tree (options.withPeers false)).on p = (.ok name, q) →
          (checkPackage tree (options.withPeers true)).on p = (.ok other, r) →
            name = other ∧ q.store.Within r.store := by
  refine ⟨fun survey fuel more root start depth p q r => within_of_walk, ?_⟩
  intro tree options name other p q r hwithout hwith
  obtain ⟨directory, begun, last, hstart, hwalk, hstore⟩ := exists_walk_of_checkPackage hwithout
  obtain ⟨place, now, finish, hstart', hwalk', hstore'⟩ := exists_walk_of_checkPackage hwith
  rw [startPackage_withPeers] at hstart hstart'
  rw [survey_withPeers] at hwalk hwalk'
  obtain ⟨hfound, rfl⟩ := Prod.mk.inj (hstart.symm.trans hstart')
  obtain ⟨rfl, rfl⟩ := Prod.mk.inj (Except.ok.inj hfound)
  rw [hstore, hstore']
  exact ⟨rfl, within_of_walk hwalk hwalk'⟩

/-- A package that conforms to the fifth edition and has its users bring along one that does
not. -/
def demandingTree : FileTree where
  top := .directory
    [(manifestName,
        .file "\x7b\"name\":\"app\",\"peerDependencies\":\x7b\"lib\":\"1\"\x7d\x7d".toUTF8.toList),
      ("index.js", .file "var a".toUTF8.toList),
      (installedName, .directory [("lib", .directory [("index.js", .file "let b".toUTF8.toList)])])]

/-- The walk from its manifest, with or without peers. -/
def demandingWalk (includePeer : Bool) : Run Unit :=
  ((demandingTree.survey {}).withPeers includePeer).walk 9 "app" (.ofString "/") 0

/-- Its survey, with or without peers. -/
def demandingCheck (includePeer : Bool) : Run String :=
  checkPackage demandingTree (Options.withPeers {} includePeer)

/-- The walk comes to nothing without peers, and the survey passes without them and fails with
them. -/
theorem demandingTree_peers_only_add :
    (∃ q r, (demandingWalk false).on {} = (.ok (), q) ∧ (demandingWalk true).on {} = (.ok (), r) ∧
        q.store.Within r.store ∧ q.store.names = [] ∧ r.store.names = ["lib"]) ∧
      ∃ q r, (demandingCheck false).on {} = (.ok "app", q) ∧
        (demandingCheck true).on {} = (.ok "app", r) ∧ q.store.Within r.store ∧
        (Report.ofStore q.store 5).passed = true ∧ (Report.ofStore r.store 5).passed = false := by
  constructor
  · have hwithout : ((demandingWalk false).on {}).1.toOption = some () ∧
        ((demandingWalk false).on {}).2.store.names = [] := by decide +kernel
    have hwith : ((demandingWalk true).on {}).1.toOption = some () ∧
        ((demandingWalk true).on {}).2.store.names = ["lib"] := by decide +kernel
    have hyields := Run.on_eq_of_toOption hwithout.1
    have hyieldsMore := Run.on_eq_of_toOption hwith.1
    exact ⟨_, _, hyields, hyieldsMore, peers_only_add.1 (demandingTree.survey {}) 9 9 "app"
      (.ofString "/") 0 {} _ _ hyields hyieldsMore, hwithout.2, hwith.2⟩
  · have hwithout : ((demandingCheck false).on {}).1.toOption = some "app" ∧
        (Report.ofStore ((demandingCheck false).on {}).2.store 5).passed = true := by
      decide +kernel
    have hwith : ((demandingCheck true).on {}).1.toOption = some "app" ∧
        (Report.ofStore ((demandingCheck true).on {}).2.store 5).passed = false := by
      decide +kernel
    have hyields := Run.on_eq_of_toOption hwithout.1
    have hyieldsMore := Run.on_eq_of_toOption hwith.1
    exact ⟨_, _, hyields, hyieldsMore, (peers_only_add.2 demandingTree {} "app" "app" {} _ _
      hyields hyieldsMore).2, hwithout.2, hwith.2⟩

end Survey

end EditionSurvey
