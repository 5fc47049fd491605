import UrlRouting.CommandLine.Run
import UrlRouting.Proofs.Related
import UrlRouting.Proofs.Text.Pieces

/-! Specifiers of a table of routes: where one leads to, why it leads nowhere, and that it is
reported if it does, unless it begins with a dot. -/
namespace UrlRouting.CommandLine

open Expression

variable {modules : List Module} {specifier name member n : List Char} {m p : Module}
  {parent found : Option Module} {names : List (List Char)} {fault : SpecifierFault} {t : Router}

namespace Module

/-! ### Packages -/

/-- The name is that of a module or of a package around it. -/
def Encloses (n name : List Char) : Prop :=
  n = name ∨ n ++ ['.'] <+: name

theorem exists_length_pieces (name : List Char) : ∃ k, (Text.pieces '.' name).length = k + 1 :=
  Nat.exists_eq_add_one.2 (List.length_pos_iff.2 Text.pieces_ne_nil)

theorem mem_chain : n ∈ chain name ↔ Encloses n name := by
  rw [chain, List.mem_map]
  constructor
  · rintro ⟨k, -, rfl⟩
    have hsplit := List.take_append_drop (k + 1) (Text.pieces '.' name)
    have hname : Text.joinPieces '.' (Text.pieces '.' name) = name := Text.joinPieces_pieces
    have htake : (Text.pieces '.' name).take (k + 1) ≠ [] := by
      simpa [List.take_eq_nil_iff] using Text.pieces_ne_nil
    by_cases hdrop : (Text.pieces '.' name).drop (k + 1) = []
    · rw [hdrop, List.append_nil] at hsplit
      exact .inl (by rw [hsplit, hname])
    · refine .inr ⟨Text.joinPieces '.' ((Text.pieces '.' name).drop (k + 1)), ?_⟩
      rw [List.append_assoc, List.singleton_append, ← Text.joinPieces_append htake hdrop, hsplit,
        hname]
  · intro h
    obtain ⟨rest, hpieces⟩ : ∃ rest, Text.pieces '.' name = Text.pieces '.' n ++ rest := by
      rcases h with rfl | ⟨rest, rfl⟩
      · exact ⟨[], (List.append_nil _).symm⟩
      · exact ⟨_, by rw [List.append_assoc, List.singleton_append, Text.pieces_separated]⟩
    obtain ⟨k, hlength⟩ := exists_length_pieces n
    refine ⟨k, ?_, ?_⟩
    · rw [hpieces, List.mem_range, List.length_append, hlength]
      omega
    · rw [hpieces, ← hlength, List.take_left, Text.joinPieces_pieces]

/-- The module itself comes last. -/
theorem chain_eq_concat (name : List Char) : ∃ outer, chain name = outer ++ [name] := by
  obtain ⟨k, hlength⟩ := exists_length_pieces name
  rw [chain, hlength, List.range_succ, List.map_append, List.map_singleton, ← hlength,
    List.take_length, Text.joinPieces_pieces]
  exact ⟨_, rfl⟩

/-- The module is at hand, and so are the packages around it. -/
structure IsAtHand (modules : List Module) (name : List Char) (m : Module) : Prop where
  found : find? modules name = some m
  packages : ∀ n, Encloses n name → ∃ p, find? modules n = some p

theorem follow_cons (h : find? modules n = some m) :
    follow modules parent (n :: names) = follow modules (some m) names := by
  simp [follow, h]

theorem follow_cons_of_none (h : find? modules n = none) :
    follow modules parent (n :: names) = .error (parent.elim (.noModule n) fun p =>
      if p.isPackage then .noModule n else .notPackage n p.name) := by
  cases parent <;> simp [follow, h]

theorem follow_concat_eq_ok : follow modules parent (names ++ [name]) = .ok found ↔
    (∀ n ∈ names, ∃ p, find? modules n = some p) ∧ ∃ m, find? modules name = some m ∧
      found = some m := by
  induction names generalizing parent with
  | nil =>
    rw [List.nil_append]
    cases h : find? modules name with
    | none => simp [follow_cons_of_none h]
    | some m =>
      have hlast : follow modules parent [name] = .ok (some m) := follow_cons h
      simp [hlast, eq_comm (a := some m)]
  | cons n names ih =>
    rw [List.cons_append]
    cases h : find? modules n with
    | none => simp [follow_cons_of_none h, h]
    | some p => simp [follow_cons h, ih, h]

theorem locate_eq_ok : locate modules name = .ok m ↔ IsAtHand modules name m := by
  obtain ⟨outer, houter⟩ := chain_eq_concat name
  have hmem : ∀ n, Encloses n name ↔ n ∈ outer ∨ n = name := by
    intro n
    rw [← mem_chain, houter, List.mem_append, List.mem_singleton]
  rw [locate, houter, bind_eq_ok]
  constructor
  · rintro ⟨found, hfound, h⟩
    obtain ⟨hpackages, m', hm', rfl⟩ := follow_concat_eq_ok.1 hfound
    cases h
    refine ⟨hm', fun n hn => ?_⟩
    rcases (hmem n).1 hn with hn | rfl
    · exact hpackages n hn
    · exact ⟨m, hm'⟩
  · rintro ⟨hfound, hpackages⟩
    refine ⟨some m, follow_concat_eq_ok.2 ⟨fun n hn => ?_, m, hfound, rfl⟩, rfl⟩
    exact hpackages n ((hmem n).2 (.inl hn))

/-- What is missing is the module or a package around it. It may be looked for within a module that
is no package. -/
inductive Lacks (modules : List Module) (name : List Char) : SpecifierFault → Prop
  | noModule {n : List Char} (hn : Encloses n name) (h : find? modules n = none) :
      Lacks modules name (.noModule n)
  | notPackage {n : List Char} {p : Module} (hn : Encloses n name) (h : find? modules n = none)
      (hp : p ∈ modules) (hplain : p.isPackage = false) : Lacks modules name (.notPackage n p.name)

theorem lacks_of_follow (hnames : ∀ n ∈ names, Encloses n name)
    (hparent : ∀ p, parent = some p → p ∈ modules)
    (h : follow modules parent names = .error fault) : Lacks modules name fault := by
  induction names generalizing parent with
  | nil => cases h
  | cons n names ih =>
    obtain ⟨hn, hnames⟩ := List.forall_mem_cons.1 hnames
    cases hfind : find? modules n with
    | some m =>
      rw [follow_cons hfind] at h
      refine ih hnames (fun p hp => ?_) h
      cases hp
      exact List.mem_of_find?_eq_some hfind
    | none =>
      rw [follow_cons_of_none hfind] at h
      cases parent with
      | none =>
        cases h
        exact .noModule hn hfind
      | some p =>
        cases hpackage : p.isPackage with
        | true =>
          simp only [Option.elim_some, hpackage, if_true] at h
          cases h
          exact .noModule hn hfind
        | false =>
          simp only [Option.elim_some, hpackage] at h
          cases h
          exact .notPackage hn hfind (hparent p rfl) hpackage

theorem lacks_of_locate (h : locate modules name = .error fault) : Lacks modules name fault := by
  obtain ⟨outer, houter⟩ := chain_eq_concat name
  have hnames : ∀ n ∈ chain name, Encloses n name := fun n hn => mem_chain.1 hn
  cases hfollow : follow modules none (chain name) with
  | error fault' =>
    rw [locate, hfollow] at h
    cases h
    exact lacks_of_follow hnames (by simp) hfollow
  | ok found =>
    rw [houter] at hfollow
    obtain ⟨_, m, _, rfl⟩ := follow_concat_eq_ok.1 hfollow
    rw [locate, houter, hfollow] at h
    cases h

/-! ### Specifiers -/

/-- The specifier is a name of a module, a dot, and a name without a dot. -/
structure Cuts (specifier name member : List Char) : Prop where
  text : specifier = name ++ '.' :: member
  last : '.' ∉ member

/-- The specifier leads to a table of routes, which a module that is at hand has. -/
inductive Names (modules : List Module) (specifier : List Char) : Router → Prop
  | intro {name member : List Char} {m : Module} {t : Router} (hcut : Cuts specifier name member)
      (hm : IsAtHand modules name m) (ht : m.attributes.lookup member = some (.router t)) :
      Names modules specifier t

/-- Why a specifier leads to no table of routes. -/
inductive Misses (modules : List Module) (specifier : List Char) : SpecifierFault → Prop
  | withoutDot (h : '.' ∉ specifier) : Misses modules specifier (.withoutDot specifier)
  | lacking {name member : List Char} {fault : SpecifierFault} (hcut : Cuts specifier name member)
      (h : Lacks modules name fault) : Misses modules specifier fault
  | noAttribute {name member : List Char} {m : Module} (hcut : Cuts specifier name member)
      (hm : IsAtHand modules name m) (h : m.attributes.lookup member = none) :
      Misses modules specifier (.noAttribute m.name member)
  | notRouter {name member : List Char} {m : Module} (hcut : Cuts specifier name member)
      (hm : IsAtHand modules name m) (h : m.attributes.lookup member = some .other) :
      Misses modules specifier (.notRouter specifier)

theorem names_of_router (hcut : Cuts specifier name member) (hm : IsAtHand modules name m)
    (h : m.router specifier member = .ok t) : Names modules specifier t := by
  unfold router at h
  split at h
  · cases h
  · cases h
  · next hmember =>
    cases h
    exact .intro hcut hm hmember

theorem misses_of_router (hcut : Cuts specifier name member) (hm : IsAtHand modules name m)
    (h : m.router specifier member = .error fault) : Misses modules specifier fault := by
  unfold router at h
  split at h
  · next hmember =>
    cases h
    exact .noAttribute hcut hm hmember
  · next hmember =>
    cases h
    exact .notRouter hcut hm hmember
  · cases h

/-- A specifier is looked up unless it begins with a dot. -/
theorem resolve_eq_ok (modules : List Module) (hdot : specifier.head? ≠ some '.') : ∃ result,
    resolve modules specifier = .ok result ∧ (∀ t, result = .ok t → Names modules specifier t) ∧
      ∀ fault, result = .error fault → Misses modules specifier fault := by
  rw [resolve]
  cases hcut : Text.cutLast? '.' specifier with
  | none =>
    refine ⟨_, rfl, nofun, ?_⟩
    rintro _ ⟨⟩
    exact .withoutDot (Text.cutLast?_eq_none.1 hcut)
  | some cut =>
    obtain ⟨name, member⟩ := cut
    obtain ⟨rfl, hlast⟩ := Text.cutLast?_eq_some.1 hcut
    have hcuts : Cuts (name ++ '.' :: member) name member := ⟨rfl, hlast⟩
    have hne : name ≠ [] := by
      rintro rfl
      exact hdot rfl
    have hhead : name.head? ≠ some '.' := by
      rwa [List.head?_append_of_ne_nil _ hne] at hdot
    refine ⟨_, (if_neg (by simpa using hne)).trans (if_neg hhead), fun t h => ?_, fun fault h => ?_⟩
    · obtain ⟨m, hm, h⟩ := bind_eq_ok.1 h
      exact names_of_router hcuts (locate_eq_ok.1 hm) h
    · cases hlocate : locate modules name with
      | error fault' =>
        rw [hlocate] at h
        cases h
        exact .lacking hcuts (lacks_of_locate hlocate)
      | ok m =>
        rw [hlocate, ok_bind] at h
        exact misses_of_router hcuts (locate_eq_ok.1 hlocate) h

/-- With a dot in front there is no name to look up, or one that only counts within a package. -/
theorem breaks_down_iff :
    (∃ b, resolve modules specifier = .error b) ↔ specifier.head? = some '.' := by
  constructor
  · rintro ⟨b, hb⟩
    by_contra hdot
    obtain ⟨result, hresult, _⟩ := resolve_eq_ok modules hdot
    cases hresult.symm.trans hb
  · intro hdot
    rw [resolve]
    cases hcut : Text.cutLast? '.' specifier with
    | none => exact absurd (List.mem_of_head? hdot) (Text.cutLast?_eq_none.1 hcut)
    | some cut =>
      obtain ⟨name, member⟩ := cut
      obtain ⟨rfl, _⟩ := Text.cutLast?_eq_some.1 hcut
      cases name with
      | nil => exact ⟨_, rfl⟩
      | cons c name =>
        rw [List.cons_append, List.head?_cons] at hdot
        exact ⟨_, (if_neg (by simp)).trans (if_pos hdot)⟩

end Module

/-- A specifier that does not begin with a dot leads to the table of routes that it names, and a
request is served from there, or it is reported why it leads nowhere, and the run returns with
status one. Nothing else can come of it. -/
theorem run_of_specifier (modules : List Module) {specifier : String}
    (hdot : specifier.toList.head? ≠ some '.') :
    (∃ t, Module.resolve modules specifier.toList = .ok (.ok t) ∧
      Module.Names modules specifier.toList t ∧
      ∀ launch words r, Demand.ofTexts words = .request r → r.application = specifier →
        run launch modules words = (serve t r).within launch.standalone) ∨
    ∃ fault, Module.resolve modules specifier.toList = .ok (.error fault) ∧
      Module.Misses modules specifier.toList fault ∧
      ∀ launch words r, Demand.ofTexts words = .request r → r.application = specifier →
        run launch modules words =
          (Outcome.ofLines 1 [fault.message]).within launch.standalone := by
  obtain ⟨result, hresult, hnames, hmisses⟩ := Module.resolve_eq_ok modules hdot
  have hrun : ∀ launch words r, Demand.ofTexts words = .request r →
      run launch modules words = (serveAmong modules r).within launch.standalone := by
    intro launch words r hwords
    rw [run, hwords]
  cases result with
  | ok t =>
    refine .inl ⟨t, hresult, hnames t rfl, ?_⟩
    rintro launch words r hwords rfl
    rw [hrun launch words r hwords, serveAmong, hresult]
  | error fault =>
    refine .inr ⟨fault, hresult, hmisses fault rfl, ?_⟩
    rintro launch words r hwords rfl
    rw [hrun launch words r hwords, serveAmong, hresult]

/-- A module with a table of routes, and with something else. -/
def application : Module :=
  ⟨"app".toList, false, [("router".toList, .router ⟨.usual, [], none⟩), ("other".toList, .other)]⟩

theorem run_of_specifier_missing : "app.missing".toList.head? ≠ some '.' ∧
    run ⟨"signpost", false⟩ [application] ["app.missing", "/"] =
      .ofLines 1 ["Module 'app' does not have an attribute 'missing'."] := by
  have hdot : "app.missing".toList.head? ≠ some '.' := by decide
  have hwords : Demand.ofTexts ["app.missing", "/"] =
      .request ⟨"app.missing", some "/", none, [], false⟩ := by decide +kernel
  have hmissing : Module.resolve [application] "app.missing".toList =
      .ok (.error (.noAttribute "app".toList "missing".toList)) := rfl
  refine ⟨hdot, ?_⟩
  rcases run_of_specifier [application] hdot with ⟨t, hfound, _⟩ | ⟨fault, hfault, _, hrun⟩
  · cases hmissing.symm.trans hfound
  · cases hmissing.symm.trans hfault
    exact hrun ⟨"signpost", false⟩ _ _ hwords rfl

/-- A dot in front of the name in a module breaks the run down. -/
theorem run_leading_dot : Demand.ofTexts [".router", "/"] =
      .request ⟨".router", some "/", none, [], false⟩ ∧
    Module.resolve [application] ".router".toList = .error .emptyModuleName ∧
    (run ⟨"signpost", false⟩ [application] [".router", "/"]).ending = .failed .emptyModuleName :=
  ⟨by decide +kernel, rfl, rfl⟩

end UrlRouting.CommandLine
