import Turbine.Routing

/-!
# Routing by server name, and the case of letters

The server name goes from the ClientHello to the comparison as the client sent it, and
`find_matching_upstream` compares it byte by byte with the names of the configuration: there
is no case folding on either side.  Host names are the same up to the case of ASCII letters,
so it matters what a change of case does to a choice among several upstreams.

Both questions --- two names and one configuration, one name and two configurations --- are
about the first match of two predicates in one list.  The two first matches agree exactly if
the first element that one of the predicates accepts is accepted by both
(`find?_eq_find?_iff`, `findIdx?_eq_findIdx?_iff`).  For the match kinds that do not look at the
name this is so, and an `Sni` match accepts one spelling only.
-/

namespace Turbine

/-- The two names are the same up to the case of ASCII letters. -/
def SameUpToCase (a b : String) : Prop := a.toList.map Char.toLower = b.toList.map Char.toLower

instance (a b : String) : Decidable (SameUpToCase a b) := inferInstanceAs (Decidable (_ = _))

namespace MatchConfig

/-- The match kinds that are not regular expressions. -/
def IsPlain : MatchConfig → Prop
  | .sniRegex _ => False
  | .sniRegexNot _ => False
  | _ => True

/-- The match is `Sni`. -/
def IsSni : MatchConfig → Prop
  | .sni _ => True
  | _ => False

/-- The same match, except for the case of the letters of its name. -/
inductive Recased : MatchConfig → MatchConfig → Prop
  | same (m : MatchConfig) : Recased m m
  | sni {a b : String} (h : SameUpToCase a b) : Recased (.sni a) (.sni b)

end MatchConfig

/-- The same upstream, except for the case of the letters of the name it matches. -/
structure Upstream.Recased (u v : Upstream) : Prop where
  matchConfig : u.cfg.matchConfig.Recased v.cfg.matchConfig
  rest : { u with cfg := { u.cfg with matchConfig := v.cfg.matchConfig } } = v

/-! ## The first match of two predicates -/

section FirstMatch

variable {α : Type} {p q : α → Bool}

theorem find?_eq_find?_iff (l : List α) :
    l.find? p = l.find? q ↔
      ∀ x, l.find? (fun x => p x || q x) = some x → p x = true ∧ q x = true := by
  induction l with
  | nil => simp
  | cons y l ih =>
    simp only [List.find?_cons]
    cases hp : p y <;> cases hq : q y
    · simpa using ih
    · -- only `q` accepts `y`, and what `p` finds is something else
      simp only [Bool.false_or, Option.some.injEq, forall_eq', hp, Bool.false_eq_true, false_and,
        iff_false]
      intro heq
      exact absurd (List.find?_some heq) (by simp [hp])
    · simp only [Bool.true_or, Option.some.injEq, forall_eq', hq, Bool.false_eq_true, and_false,
        iff_false]
      intro heq
      exact absurd (List.find?_some heq.symm) (by simp [hq])
    · simp [hp, hq]

theorem findIdx?_eq_findIdx?_iff (l : List α) :
    l.findIdx? p = l.findIdx? q ↔
      ∀ x, l.find? (fun x => p x || q x) = some x → p x = true ∧ q x = true := by
  induction l with
  | nil => simp
  | cons y l ih =>
    simp only [List.findIdx?_cons, List.find?_cons]
    cases hp : p y <;> cases hq : q y
    · simp only [Bool.false_eq_true, reduceIte, Bool.or_false, ← ih]
      exact (Option.map_injective (Nat.succ_injective)).eq_iff
    · simp [hp]
    · simp only [reduceIte, Bool.true_or, Option.some.injEq, forall_eq', hq, Bool.false_eq_true,
        and_false, iff_false]
      intro heq
      exact absurd heq.symm (by simp)
    · simp [hp, hq]

end FirstMatch

namespace MatchContext

/-- The position of the upstream that `find_matching_upstream` returns. -/
def matchingPosition (ctx : MatchContext) (upstreams : NonEmpty Upstream) : Option ℕ :=
  upstreams.toList.findIdx? fun upstream => ctx.accepts upstream.cfg.matchConfig

theorem findMatchingUpstream_eq_position (ctx : MatchContext) (upstreams : NonEmpty Upstream) :
    ctx.findMatchingUpstream upstreams =
      (ctx.matchingPosition upstreams).bind fun i => upstreams.toList[i]? :=
  List.find?_eq_bind_findIdx?_getElem?

/-- An `Sni` match accepts its own spelling. -/
theorem accepts_sni_iff {ctx : MatchContext} {name : String} :
    ctx.accepts (.sni name) = true ↔ ctx.sni = some name := by
  cases hsni : ctx.sni with
  | none => simp [accepts, hsni]
  | some a => simp [accepts, hsni]

variable (alpns : Option (List (List UInt8))) (destination : SocketAddr)

/-- The other kinds do not look at the name, unless they are regular expressions. -/
theorem accepts_eq_of_not_isSni (a b : Option String) {m : MatchConfig} (hplain : m.IsPlain)
    (hsni : ¬ m.IsSni) :
    (MatchContext.mk a alpns destination).accepts m =
      (MatchContext.mk b alpns destination).accepts m := by
  cases m with
  | sni name => exact absurd trivial hsni
  | sniRegex regex => exact absurd hplain id
  | sniRegexNot regex => exact absurd hplain id
  | _ => rfl

/-- A match that accepts one of two names accepts both exactly if they are the same or it is
not an `Sni` match. -/
theorem accepts_both_iff {a b : String} {m : MatchConfig} (hplain : m.IsPlain)
    (h : ((MatchContext.mk (some a) alpns destination).accepts m ||
      (MatchContext.mk (some b) alpns destination).accepts m) = true) :
    ((MatchContext.mk (some a) alpns destination).accepts m = true ∧
        (MatchContext.mk (some b) alpns destination).accepts m = true) ↔
      a = b ∨ ¬ m.IsSni := by
  by_cases hsni : m.IsSni
  · cases m with
    | sni name =>
      simp only [accepts_sni_iff, Option.some.injEq, Bool.or_eq_true] at h ⊢
      simp only [hsni, not_true, or_false]
      constructor
      · rintro ⟨rfl, rfl⟩
        rfl
      · rintro rfl
        exact ⟨h.elim id id, h.elim id id⟩
    | _ => exact absurd hsni id
  · rw [accepts_eq_of_not_isSni alpns destination (some a) (some b) hplain hsni, Bool.or_self] at h
    rw [accepts_eq_of_not_isSni alpns destination (some a) (some b) hplain hsni]
    exact iff_of_true ⟨h, h⟩ (Or.inr hsni)

/-- Of two spellings of a match that accept the context in one of them, both accept it exactly
if they are the same. -/
theorem accepts_both_iff_of_recased {ctx : MatchContext} {m m' : MatchConfig}
    (hcase : m.Recased m') (h : (ctx.accepts m || ctx.accepts m') = true) :
    (ctx.accepts m = true ∧ ctx.accepts m' = true) ↔ m = m' := by
  cases hcase with
  | same =>
    rw [Bool.or_self] at h
    exact iff_of_true ⟨h, h⟩ rfl
  | @sni a b _ =>
    simp only [accepts_sni_iff, Bool.or_eq_true, MatchConfig.sni.injEq] at h ⊢
    constructor
    · rintro ⟨ha, hb⟩
      exact Option.some.inj (ha.symm.trans hb)
    · rintro rfl
      exact ⟨h.elim id id, h.elim id id⟩

theorem findMatchingUpstream_eq_iff {upstreams : NonEmpty Upstream}
    (hplain : ∀ u ∈ upstreams.toList, u.cfg.matchConfig.IsPlain) (a b : String) :
    (MatchContext.mk (some a) alpns destination).findMatchingUpstream upstreams =
        (MatchContext.mk (some b) alpns destination).findMatchingUpstream upstreams ↔
      a = b ∨ ∀ u, upstreams.toList.find? (fun u =>
          (MatchContext.mk (some a) alpns destination).accepts u.cfg.matchConfig ||
          (MatchContext.mk (some b) alpns destination).accepts u.cfg.matchConfig) = some u →
        ¬ u.cfg.matchConfig.IsSni := by
  rw [findMatchingUpstream, findMatchingUpstream, find?_eq_find?_iff, ← forall_or_left]
  refine forall_congr' fun u => ?_
  by_cases hfind : upstreams.toList.find? (fun u =>
      (MatchContext.mk (some a) alpns destination).accepts u.cfg.matchConfig ||
      (MatchContext.mk (some b) alpns destination).accepts u.cfg.matchConfig) = some u
  · have haccepts := List.find?_some hfind
    simp only [hfind, forall_const]
    exact accepts_both_iff alpns destination (hplain u (List.mem_of_find?_eq_some hfind)) haccepts
  · exact iff_of_true (fun h => absurd h hfind) (Or.inr fun h => absurd h hfind)

theorem matchingPosition_eq_iff (ctx : MatchContext) {upstreams upstreams' : NonEmpty Upstream}
    (hcase : List.Forall₂ Upstream.Recased upstreams.toList upstreams'.toList) :
    ctx.matchingPosition upstreams = ctx.matchingPosition upstreams' ↔
      ∀ u v, (upstreams.toList.zip upstreams'.toList).find? (fun x =>
          ctx.accepts x.1.cfg.matchConfig || ctx.accepts x.2.cfg.matchConfig) = some (u, v) →
        u.cfg.matchConfig = v.cfg.matchConfig := by
  have hlen := hcase.length_eq
  have hfst : ctx.matchingPosition upstreams = (upstreams.toList.zip upstreams'.toList).findIdx?
      fun x => ctx.accepts x.1.cfg.matchConfig := by
    conv_lhs => rw [matchingPosition, ← List.map_fst_zip (Nat.le_of_eq hlen), List.findIdx?_map]
    rfl
  have hsnd : ctx.matchingPosition upstreams' = (upstreams.toList.zip upstreams'.toList).findIdx?
      fun x => ctx.accepts x.2.cfg.matchConfig := by
    conv_lhs =>
      rw [matchingPosition, ← List.map_snd_zip (Nat.le_of_eq hlen.symm), List.findIdx?_map]
    rfl
  rw [hfst, hsnd, findIdx?_eq_findIdx?_iff, Prod.forall]
  refine forall_congr' fun u => forall_congr' fun v => forall_congr' fun hfind => ?_
  have hrecased := List.forall₂_zip hcase (List.mem_of_find?_eq_some hfind)
  have haccepts := List.find?_some hfind
  exact accepts_both_iff_of_recased hrecased.matchConfig haccepts

/-- **What a change of case does.**  Names are compared as they are written.  For every list
of upstreams without regular expressions and any two names, the same upstream is chosen if
and only if the names are equal or the first upstream that accepts one of them is not an
`Sni` match; and whatever the names in the configuration are rewritten to, up to case, the
upstream at the same position is chosen if and only if the first one that accepts the
connection in either spelling is spelled the same in both. -/
theorem sameChoice_iff (upstreams : NonEmpty Upstream)
    (hplain : ∀ u ∈ upstreams.toList, u.cfg.matchConfig.IsPlain) :
    (∀ a b : String,
      (MatchContext.mk (some a) alpns destination).findMatchingUpstream upstreams =
          (MatchContext.mk (some b) alpns destination).findMatchingUpstream upstreams ↔
        a = b ∨ ∀ u, upstreams.toList.find? (fun u =>
            (MatchContext.mk (some a) alpns destination).accepts u.cfg.matchConfig ||
            (MatchContext.mk (some b) alpns destination).accepts u.cfg.matchConfig) = some u →
          ¬ u.cfg.matchConfig.IsSni) ∧
      ∀ (sni : Option String) (upstreams' : NonEmpty Upstream),
        List.Forall₂ Upstream.Recased upstreams.toList upstreams'.toList →
        ((MatchContext.mk sni alpns destination).matchingPosition upstreams =
            (MatchContext.mk sni alpns destination).matchingPosition upstreams' ↔
          ∀ u v, (upstreams.toList.zip upstreams'.toList).find? (fun x =>
              (MatchContext.mk sni alpns destination).accepts x.1.cfg.matchConfig ||
              (MatchContext.mk sni alpns destination).accepts x.2.cfg.matchConfig) = some (u, v) →
            u.cfg.matchConfig = v.cfg.matchConfig) :=
  ⟨findMatchingUpstream_eq_iff alpns destination hplain,
    fun sni _ hcase => matchingPosition_eq_iff ⟨sni, alpns, destination⟩ hcase⟩

/-- An upstream with one backend and this match. -/
def upstreamFor (name : String) (matchConfig : MatchConfig) : Upstream where
  cfg :=
    { name, matchConfig, backends := .static ⟨⟨.v4 1 80⟩, []⟩, loadBalancing := .random,
      proxyProtocol := false, cnxMaxDuration := 0 }
  backends := ⟨⟨.v4 1 80⟩, []⟩
  loadBalancing := .random
  tlsAcceptor := none

/-- One site by its name, and everything else elsewhere. -/
def siteOrElse (name : String) : NonEmpty Upstream :=
  ⟨upstreamFor "site" (.sni name), [upstreamFor "else" .any]⟩

theorem recased_siteOrElse {a b : String} (h : SameUpToCase a b) :
    List.Forall₂ Upstream.Recased (siteOrElse a).toList (siteOrElse b).toList :=
  .cons ⟨.sni h, rfl⟩ (.cons ⟨.same _, rfl⟩ .nil)

/-- A name that neither spelling of the configuration has goes elsewhere in every case. -/
theorem sameChoice_iff_siteOrElse :
    (MatchContext.mk (some "Other.com") none (.v4 1 443)).findMatchingUpstream
        (siteOrElse "example.com") =
      (MatchContext.mk (some "other.com") none (.v4 1 443)).findMatchingUpstream
        (siteOrElse "example.com") ∧
      (MatchContext.mk (some "other.com") none (.v4 1 443)).matchingPosition
          (siteOrElse "example.com") =
        (MatchContext.mk (some "other.com") none (.v4 1 443)).matchingPosition
          (siteOrElse "Example.com") := by
  have hplain : ∀ u ∈ (siteOrElse "example.com").toList, u.cfg.matchConfig.IsPlain := by
    intro u hu
    rcases List.mem_pair.mp hu with rfl | rfl
    · exact trivial
    · exact trivial
  have h := sameChoice_iff none (.v4 1 443) (siteOrElse "example.com") hplain
  constructor
  · refine (h.1 "Other.com" "other.com").mpr (Or.inr fun u hu => ?_)
    obtain rfl := Option.some.inj hu
    exact id
  · refine (h.2 (some "other.com") _ (recased_siteOrElse (by decide))).mpr fun u v huv => ?_
    obtain ⟨rfl, rfl⟩ := Prod.mk.inj (Option.some.inj huv)
    rfl

/-- **`Example.com` is not `example.com`.**  The client that writes the name with a capital
goes elsewhere, and so do all the others once the configuration does. -/
theorem not_sameChoice_capital :
    SameUpToCase "Example.com" "example.com" ∧
      ((MatchContext.mk (some "example.com") none (.v4 1 443)).findMatchingUpstream
        (siteOrElse "example.com")).map (fun u => u.cfg.name) = some "site" ∧
      ((MatchContext.mk (some "Example.com") none (.v4 1 443)).findMatchingUpstream
        (siteOrElse "example.com")).map (fun u => u.cfg.name) = some "else" ∧
      List.Forall₂ Upstream.Recased (siteOrElse "Example.com").toList
        (siteOrElse "example.com").toList ∧
      ((MatchContext.mk (some "example.com") none (.v4 1 443)).findMatchingUpstream
        (siteOrElse "Example.com")).map (fun u => u.cfg.name) = some "else" :=
  ⟨by decide, by decide, by decide, recased_siteOrElse (by decide), by decide⟩

end MatchContext
end Turbine
