/-
ShapeScript.Proofs.Document.Reachable — the declarations that a run sees.

Running a program looks up `main`, and after that only names that calls
from there come to; calls of `svg` look up nothing. So two programs that
agree on these names have the same document or the same problem, whatever
else they declare and in whichever order.

`AgreeFrom` is what a call needs of two registries: that they agree on
its own name and on all that comes after it. Calls in the body of what it
finds then need no more, so calls that are equal and agree in this sense
are a simulation, and the induction over the run is that of
`Simulation.call`. The other statements come down to this one: a
declaration that registers is found under its name wherever it stands.
-/
import Mathlib.Data.List.Perm.Subperm
import ShapeScript.Proofs.Document.WellFormed
import ShapeScript.Proofs.Session.Simulation

namespace ShapeScript

open Relation (ReflTransGen)

namespace Registry

variable {base r r' : Registry} {p p' : Program} {f g : String}

/-- The registries agree on the names that calls from `f` come to. -/
def AgreeFrom (r r' : Registry) (f : String) : Prop :=
  ∀ g, ReflTransGen r.Calls f g → g ≠ svgName → r.find? g = r'.find? g

/-- The registries agree on `main` and on the names that it reaches. -/
structure AgreeOnReached (r r' : Registry) : Prop where
  main : r.find? mainName = r'.find? mainName
  reached : ∀ f, r.Reaches f → f ≠ svgName → r.find? f = r'.find? f

/-! ## Runs -/

theorem AgreeFrom.of_calls (h : r.AgreeFrom r' f) (hcall : r.Calls f g) : r.AgreeFrom r' g :=
  fun g' hg' => h g' (.head hcall hg')

/-- Equal calls do the same when the registries agree from their name on. -/
theorem simulation_agreeFrom (r r' : Registry) :
    Simulation Eq Eq Eq (fun c c' => c = c' ∧ r.AgreeFrom r' c.callee) r r' where
  callee := by
    rintro c _ ⟨rfl, _⟩
    rfl
  error := by
    rintro c _ ⟨rfl, _⟩ fault
    rfl
  svg := by
    rintro c _ ⟨rfl, _⟩ _ scope _ rfl
    exact .refl (fun _ => rfl) (fun _ => rfl) _
  shape := by
    rintro c _ ⟨rfl, hagree⟩ hsvg
    rw [← hagree c.callee .refl hsvg]
    cases hfind : r.find? c.callee with
    | none => exact .none
    | some shape =>
      refine .some ⟨?_, List.forall₂_same.mpr fun inner hinner => ⟨rfl, ?_⟩⟩
      · rintro scope _ rfl
        exact .refl (fun _ => rfl) (fun _ => rfl) _
      · exact hagree.of_calls ⟨hsvg, shape, hfind, inner, hinner, rfl⟩
  join := join_eq

theorem AgreeOnReached.document {library : LibraryText} (h : r.AgreeOnReached r')
    (hload : library.load = .ok base) (hreg : base.register p true = .ok r)
    (hreg' : base.register p' true = .ok r') : p.document library = p'.document library := by
  obtain ⟨m, _, hfind⟩ := find?_mainName hreg
  have hmain : Option.Rel (fun s s' => s = m ∧ s' = m) (r.find? mainName) (r'.find? mainName) := by
    rw [← h.main, hfind]
    exact .some ⟨rfl, rfl⟩
  have hcalls : ∀ c ∈ m.body.calls, r.AgreeFrom r' c.callee :=
    fun c hc g hg => h.reached g ⟨c.callee, ⟨m, hfind, c, hc, rfl⟩, hg⟩
  have hdocuments : Corresponds Eq Eq (p.document library) (p'.document library) := by
    refine (simulation_agreeFrom r r').document hload hreg hreg' hmain ?_ rfl
      (fun _ _ he => by rw [he]) (fun _ _ ht => by rw [ht])
    rintro _ _ ⟨rfl, rfl⟩
    exact List.forall₂_same.mpr fun c hc => ⟨rfl, hcalls c hc⟩
  exact hdocuments.eq

/-! ## Declaring more -/

theorem runs_of_reaches {s : Shape} (hf : r.Reaches f) (hsvg : f ≠ svgName)
    (hfind : r.find? f = some s) : r.Runs s :=
  .inr ⟨f, hsvg, hf, hfind⟩

/-- A program that leaves out declarations of one that registers, but not
its `main`, registers. -/
theorem register_of_subperm (hreg : base.register p' true = .ok r')
    (hsub : p.shapes.Subperm p'.shapes) (hmain : p.hasMain = true) :
    base.register p true = .ok ⟨base.shapes ++ p.shapes⟩ := by
  obtain ⟨_, hnodup, hfree, _⟩ := register_eq_ok_iff.mp hreg
  obtain ⟨kept, hperm, hkept⟩ := hsub
  refine register_eq_ok_iff.mpr ⟨rfl, ?_, fun s hs => ?_, hmain⟩
  · have hnodup : (kept.map Shape.name).Nodup := (hkept.map Shape.name).nodup hnodup
    exact (hperm.map Shape.name).nodup_iff.mp hnodup
  · exact hfree s (hkept.subset (hperm.mem_iff.mpr hs))

/-- What a program declares and what the library declares is also found in
a larger program. -/
theorem find?_of_subset (hreg : base.register p true = .ok r)
    (hreg' : base.register p' true = .ok r') (hsub : p.shapes ⊆ p'.shapes) {s : Shape}
    (hfind : r.find? f = some s) : r'.find? f = some s := by
  obtain hbase | ⟨hs, hname⟩ := (find?_eq_some_iff_of_register hreg).mp hfind
  · exact (find?_eq_some_iff_of_register hreg').mpr (.inl hbase)
  · exact (find?_eq_some_iff_of_register hreg').mpr (.inr ⟨hsub hs, hname⟩)

/-- What a larger program finds is found without the declarations that were
added, unless it is one of them. -/
theorem find?_eq_of_subset (hreg : base.register p true = .ok r)
    (hreg' : base.register p' true = .ok r') (hsub : p.shapes ⊆ p'.shapes)
    (hkept : ∀ s ∈ p'.shapes, r'.find? f = some s → s ∈ p.shapes) : r.find? f = r'.find? f := by
  refine Option.ext fun s => ⟨find?_of_subset hreg hreg' hsub, fun hfind' => ?_⟩
  obtain hbase | ⟨hs, hname⟩ := (find?_eq_some_iff_of_register hreg').mp hfind'
  · exact (find?_eq_some_iff_of_register hreg).mpr (.inl hbase)
  · exact (find?_eq_some_iff_of_register hreg).mpr (.inr ⟨hkept s hs hfind', hname⟩)

/-- Leaving out declarations that do not run changes nothing for those that
do. -/
theorem agreeOnReached_of_left_out (hreg : base.register p true = .ok r)
    (hreg' : base.register p' true = .ok r') (hsub : p.shapes ⊆ p'.shapes)
    (hruns : ∀ s ∈ p'.shapes, r'.Runs s → s ∈ p.shapes) : r'.AgreeOnReached r where
  main := (find?_eq_of_subset hreg hreg' hsub fun s hs hfind => hruns s hs (.inl hfind)).symm
  reached _ hf hsvg := (find?_eq_of_subset hreg hreg' hsub fun s hs hfind =>
    hruns s hs (runs_of_reaches hf hsvg hfind)).symm

/-- Nor does adding declarations under names that are not reached. -/
theorem agreeOnReached_of_added (hreg : base.register p true = .ok r)
    (hreg' : base.register p' true = .ok r') (hsub : p.shapes ⊆ p'.shapes)
    (hadded : ∀ s ∈ p'.shapes, r.Reaches s.name → s.name ≠ svgName → s ∈ p.shapes) :
    r.AgreeOnReached r' where
  main := by
    obtain ⟨m, _, hfind⟩ := find?_mainName hreg
    rw [hfind, find?_of_subset hreg hreg' hsub hfind]
  reached _ hf hsvg := find?_eq_of_subset hreg hreg' hsub fun s hs hfind => by
    obtain ⟨_, rfl⟩ := mem_of_find?_eq_some hfind
    exact hadded s hs hf hsvg

end Registry

/-! ## Programs -/

section Programs

variable {library : LibraryText} {base : Registry} {p p' : Program}

/-- A program that keeps what runs keeps `main`. -/
theorem hasMain_of_left_out {r' : Registry} (hreg' : base.register p' true = .ok r')
    (hruns : ∀ s ∈ p'.shapes, r'.Runs s → s ∈ p.shapes) : p.hasMain = true := by
  obtain ⟨m, hm, hfind, hparameters⟩ := Registry.exists_main hreg'
  obtain ⟨_, hname⟩ := Registry.mem_of_find?_eq_some hfind
  have hkept : m ∈ p.shapes := hruns m hm (.inl hfind)
  rw [Program.hasMain, List.any_eq_true]
  exact ⟨m, hkept, by simp [hname, hparameters]⟩

theorem document_of_left_out {r' : Registry} (hload : library.load = .ok base)
    (hreg' : base.register p' true = .ok r') (hsub : p.shapes.Subperm p'.shapes)
    (hruns : ∀ s ∈ p'.shapes, r'.Runs s → s ∈ p.shapes) :
    p.document library = p'.document library := by
  have hreg := Registry.register_of_subperm hreg' hsub (hasMain_of_left_out hreg' hruns)
  have hagree := Registry.agreeOnReached_of_left_out hreg hreg' hsub.subset hruns
  exact (hagree.document hload hreg' hreg).symm

/-- Only definitions that are reached matter. Programs that have one `main`
and agree on the names that calls from there come to, `svg` aside, have
one outcome: the same document, or the same problem at the same place. So
the order of declarations makes no difference, and neither do declarations
that `main` does not reach, be they left out or put in. -/
theorem only_reached_definitions_matter (hload : library.load = .ok base) (p p' : Program) :
    (∀ r r', base.register p true = .ok r → base.register p' true = .ok r' →
      r.find? mainName = r'.find? mainName →
      (∀ f, r.Reaches f → f ≠ svgName → r.find? f = r'.find? f) →
        p.document library = p'.document library) ∧
    (∀ r, base.register p true = .ok r → p.shapes.Perm p'.shapes →
      p.document library = p'.document library) ∧
    (∀ r', base.register p' true = .ok r' → p.shapes.Subperm p'.shapes →
      (∀ s ∈ p'.shapes, r'.Runs s → s ∈ p.shapes) →
        p.document library = p'.document library) ∧
    ∀ r r', base.register p true = .ok r → base.register p' true = .ok r' →
      p.shapes ⊆ p'.shapes →
      (∀ s ∈ p'.shapes, r.Reaches s.name → s.name ≠ svgName → s ∈ p.shapes) →
        p.document library = p'.document library := by
  refine ⟨?_, ?_, ?_, ?_⟩
  · intro r r' hreg hreg' hmain hreached
    exact Registry.AgreeOnReached.document ⟨hmain, hreached⟩ hload hreg hreg'
  · intro r hreg hperm
    have hkept : ∀ s ∈ p.shapes, r.Runs s → s ∈ p'.shapes := fun s hs _ => hperm.mem_iff.mp hs
    exact (document_of_left_out hload hreg hperm.symm.subperm hkept).symm
  · intro r' hreg' hsub hruns
    exact document_of_left_out hload hreg' hsub hruns
  · intro r r' hreg hreg' hsub hadded
    have hagree := Registry.agreeOnReached_of_added hreg hreg' hsub hadded
    exact hagree.document hload hreg hreg'

/-- `shape spare() { nowhere(size: width) }`, which no call would survive. -/
def spareShape : Shape :=
  ⟨"spare", [], ⟨[⟨"nowhere", [⟨"size", .name "width" .origin, .origin⟩], .origin⟩], .origin⟩,
    .origin⟩

/-- `main` and `tag`, the other way round and with that shape between them. -/
def clutteredProgram : Program := ⟨[tagMain, spareShape, tagShape], .origin⟩

theorem reaches_of_tagMain {r : Registry} {f : String} (hmain : r.find? mainName = some tagMain)
    (htag : r.find? "tag" = some tagShape) (h : r.Reaches f) : f = "tag" ∨ f = svgName := by
  obtain ⟨_, ⟨m, hm, c, hc, rfl⟩, hreach⟩ := h
  obtain rfl : tagMain = m := Option.some.inj (hmain.symm.trans hm)
  obtain rfl := List.mem_singleton.mp hc
  induction hreach with
  | refl => exact .inl rfl
  | tail _ hcall ih =>
    obtain ⟨hsvg, shape, hfind, inner, hinner, rfl⟩ := hcall
    obtain rfl | rfl := ih
    · obtain rfl : tagShape = shape := Option.some.inj (htag.symm.trans hfind)
      obtain rfl := List.mem_singleton.mp hinner
      exact .inr rfl
    · exact absurd rfl hsvg

/-- With the builtin library the spare shape is registered and does not run,
so that program has the document of the one without it. -/
theorem clutteredProgram_document :
    ∃ base r, LibraryText.builtin.load = .ok base ∧
      base.register clutteredProgram true = .ok r ∧ ¬ r.Runs spareShape ∧
      tagProgram.document .builtin = clutteredProgram.document .builtin ∧
      clutteredProgram.document .builtin = .ok (documentOf "12px") := by
  obtain ⟨base, hload, hnames, _⟩ := builtin_load
  obtain ⟨r, hreg⟩ : ∃ r, base.register clutteredProgram true = .ok r :=
    register_of_builtin hnames rfl (by decide) rfl
  have hmain : r.find? mainName = some tagMain :=
    Registry.find?_of_register hreg tagMain (by simp [clutteredProgram])
  have htag : r.find? "tag" = some tagShape :=
    Registry.find?_of_register hreg tagShape (by simp [clutteredProgram])
  have hspare : ¬ r.Runs spareShape := by
    rintro (hfind | ⟨f, hsvg, hreach, hfind⟩)
    · have hname := (Registry.mem_of_find?_eq_some hfind).2
      exact absurd hname (by decide)
    · obtain rfl := (Registry.mem_of_find?_eq_some hfind).2
      have hname := reaches_of_tagMain hmain htag hreach
      exact absurd hname (by decide)
  have hsub : tagProgram.shapes.Subperm clutteredProgram.shapes := by
    have hswap : tagProgram.shapes.Perm [tagMain, tagShape] := .swap _ _ _
    exact ⟨_, hswap.symm, .cons_cons _ (.cons _ (.cons_cons _ .slnil))⟩
  have hkept : ∀ s ∈ clutteredProgram.shapes, r.Runs s → s ∈ tagProgram.shapes := by
    intro s hs hruns
    simp only [clutteredProgram, List.mem_cons, List.not_mem_nil, or_false] at hs
    obtain rfl | rfl | rfl := hs
    · simp [tagProgram]
    · exact absurd hruns hspare
    · simp [tagProgram]
  have hdoc := document_of_tagMain hload hreg hmain htag
  have hmatter := only_reached_definitions_matter hload tagProgram clutteredProgram
  exact ⟨base, r, hload, hreg, hspare, hmatter.2.2.1 r hreg hsub hkept, hdoc⟩

end Programs

end ShapeScript
