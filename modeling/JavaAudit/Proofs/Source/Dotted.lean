import JavaAudit.Facts.Event
import JavaAudit.Proofs.Source.Extents

/-! Dotted names in a source that parses. A declaration of a package or an import holds one, its leaves
are words with single dots between them, and of the gaps before the later leaves the comments alone are
left when the blanks are dropped. -/
namespace JavaAudit
open Source Tree Text

namespace Source

mutual

def Tree.identifiers : Tree → List String
  | .leaf _ _ => []
  | .node r k cs => if k = .identifier then [(Tree.node r k cs).text] else identifiersOf cs

def Tree.identifiersOf : List Tree → List String
  | [] => []
  | t :: ts => t.identifiers ++ identifiersOf ts

end

inductive Dotted : List Token → List String → Prop
  | one {word : Token} (isWord : word.kind = .word) : Dotted [word] [word.text]
  | more {front : List Token} {dot word : Token} {names : List String} (before : Dotted front names)
      (isDot : dot.text = ".") (isWord : word.kind = .word) :
      Dotted (front ++ [dot, word]) (names ++ [word.text])

theorem identifierDerived {rules : Symbol → Grammar} {ts : List Tree}
    (derives : Derives rules (Grammar.identifier []) ts) :
    ∃ token, ts = [.node none .identifier [.leaf none token]] ∧ token.kind = .word := by
  cases derives with
  | node below =>
    cases below with
    | terminal accepted => exact ⟨_, rfl, by simpa [Terminal.accepts] using accepted⟩

theorem dottedDerived {rules : Symbol → Grammar} {ts : List Tree}
    (derives : Derives rules Grammar.dottedName ts) :
    ∃ name, ts = [name] ∧ name.isName = true ∧ Dotted name.leaves name.identifiers := by
  generalize same : Grammar.dottedName = rule at derives
  induction derives with
  | item whole =>
    cases same
    obtain ⟨token, rfl, isWord⟩ := identifierDerived whole
    exact ⟨_, rfl, rfl, .one isWord⟩
  | link listed before fitting below ih =>
    obtain ⟨name, rfl, -, dotted⟩ := ih same
    cases same
    obtain ⟨rfl, rfl, rfl, rfl⟩ : _ ∧ _ ∧ _ ∧ _ := by simpa using listed
    cases below with
    | both left right =>
      obtain ⟨token, rfl, isWord⟩ := identifierDerived right
      cases left with
      | terminal accepted =>
        refine ⟨_, rfl, rfl, ?_⟩
        have point := beq_iff_eq.mp accepted
        simpa [leaves, leavesOf, linkTo, Tree.identifiers, Tree.identifiersOf, text, spell] using
          Dotted.more dotted point isWord
  | _ => cases same

theorem manyDerived {rules : Symbol → Grammar} {item : Grammar} {P : Tree → Prop}
    (each : ∀ ts, Derives rules item ts → ∀ t ∈ ts, P t) {ts : List Tree}
    (derives : Derives rules (.many item) ts) : ∀ t ∈ ts, P t := by
  generalize same : Rule.many item = rule at derives
  induction derives with
  | none => simp
  | more first rest _ ih =>
    cases same
    exact List.forall_mem_append.mpr ⟨each _ first, ih rfl⟩
  | _ => cases same

theorem annotationUnnamed {ts : List Tree} (derives : Derives grammar (.named .annotationUse) ts) :
    ∀ t ∈ ts, t.isName = false := by
  cases derives with
  | named same =>
    cases same with
    | first taken =>
      cases taken
      simp [isName, isKind, kind?]
    | second taken =>
      cases taken
      simp [isName, isKind, kind?]

theorem literalUnnamed {rules : Symbol → Grammar} {word : String} {ts : List Tree}
    (derives : Derives rules (Rule.lit word) ts) : ∀ t ∈ ts, t.isName = false := by
  cases derives
  simp [isName, isKind, kind?]

theorem optionalUnnamed {rules : Symbol → Grammar} {item : Grammar} {ts : List Tree}
    (each : ∀ us, Derives rules item us → ∀ t ∈ us, t.isName = false)
    (derives : Derives rules (Rule.opt item) ts) : ∀ t ∈ ts, t.isName = false := by
  cases derives with
  | first taken => exact each _ taken
  | second taken =>
    cases taken
    simp

theorem wildcardUnnamed {rules : Symbol → Grammar} {ts : List Tree}
    (derives : Derives rules (Rule.all [Rule.lit ".", .node .asterisk (Rule.lit "*")]) ts) :
    ∀ t ∈ ts, t.isName = false := by
  cases derives with
  | both left right =>
    cases right
    exact List.forall_mem_append.mpr ⟨literalUnnamed left, by simp [isName, isKind, kind?]⟩

def Named (ts : List Tree) : Prop :=
  ∃ name, ts.filter isName = [name] ∧ Dotted name.leaves name.identifiers

theorem namedBetween {rules : Symbol → Grammar} {front ts back : List Tree}
    (before : ∀ t ∈ front, t.isName = false) (derives : Derives rules Grammar.dottedName ts)
    (after : ∀ t ∈ back, t.isName = false) : Named (front ++ (ts ++ back)) := by
  obtain ⟨name, rfl, isName, dotted⟩ := dottedDerived derives
  refine ⟨name, ?_, dotted⟩
  have first : front.filter Tree.isName = [] := List.filter_eq_nil_iff.mpr (by simpa using before)
  have last : back.filter Tree.isName = [] := List.filter_eq_nil_iff.mpr (by simpa using after)
  rw [List.filter_append, List.filter_append, first, last, List.filter_singleton, isName]
  rfl

theorem packageNamed {cs : List Tree}
    (derives : Derives grammar Grammar.packageDeclaration [.node none .packageDeclaration cs]) :
    Named cs := by
  cases derives with
  | node below =>
    cases below with
    | both notes rest =>
      cases rest with
      | both word rest =>
        cases rest with
        | both name semicolon =>
          rw [← List.append_assoc]
          exact namedBetween (List.forall_mem_append.mpr
            ⟨manyDerived (fun _ => annotationUnnamed) notes, literalUnnamed word⟩) name
            (literalUnnamed semicolon)

theorem importNamed {cs : List Tree}
    (derives : Derives grammar Grammar.importDeclaration [.node none .importDeclaration cs]) :
    Named cs := by
  cases derives with
  | node below =>
    cases below with
    | both word rest =>
      cases rest with
      | both isStatic rest =>
        cases rest with
        | both name rest =>
          cases rest with
          | both wildcard semicolon =>
            rw [← List.append_assoc]
            exact namedBetween (List.forall_mem_append.mpr
              ⟨literalUnnamed word, optionalUnnamed (fun _ => literalUnnamed) isStatic⟩) name
              (List.forall_mem_append.mpr
                ⟨optionalUnnamed (fun _ => wildcardUnnamed) wildcard, literalUnnamed semicolon⟩)

def isNaming (entry : Kind × Grammar) : Bool :=
  entry.1 == .packageDeclaration || entry.1 == .importDeclaration

set_option maxRecDepth 2000 in
theorem grammarNaming (n : Symbol) :
    ((grammar n).nodes.filter isNaming).map (fun entry => Rule.node entry.1 entry.2) =
      if n = .declaration then [Grammar.packageDeclaration, Grammar.importDeclaration] else [] := by
  cases n with
  | binary level arrows =>
    rcases level with _ | _ | _ | _ | _ | _ | _ | _ | _ | _ | level <;> rfl
  | _ => rfl

theorem namingBuilt {k : Kind} {cs : List Tree} (built : Built grammar k cs)
    (naming : k = .packageDeclaration ∨ k = .importDeclaration) : Named cs := by
  obtain ⟨n, parts, listed, derives⟩ := built
  have found : Rule.node k parts ∈ ((grammar n).nodes.filter isNaming).map
      fun entry => Rule.node entry.1 entry.2 :=
    List.mem_map.mpr ⟨(k, parts), List.mem_filter.mpr ⟨listed, by simpa [isNaming] using naming⟩, rfl⟩
  have whole : Derives grammar (.node k parts) [.node none k cs] := .node derives
  rw [grammarNaming] at found
  split at found
  · rcases List.mem_pair.mp found with same | same
    · rw [same] at whole
      cases same
      exact packageNamed whole
    · rw [same] at whole
      cases same
      exact importNamed whole
  · cases found

def Token.afterComment (t : Token) : Prop := ∃ comment, IsComment comment ∧ comment <:+: t.lead.toList

theorem gapBlank {c : Char} (isGap : isGap c = true) : isBlank c = true := by
  simp only [Source.isGap, isBlank, Bool.or_eq_true, Bool.and_eq_true, decide_eq_true_eq,
    beq_iff_eq] at isGap ⊢
  rcases isGap with rfl | range
  · simp
  · simp [range]

theorem commentNotBlank {comment : List Char} (isComment : IsComment comment) : '/' ∈ comment := by
  cases isComment <;> exact List.mem_cons_self

theorem squeezeGap {t : Token} (gap : Gap t.lead.toList) :
    squeeze t.lead = "" ↔ ¬ t.afterComment := by
  rw [← String.toList_eq_nil_iff, squeeze, String.toList_ofList]
  constructor
  · rintro nothing ⟨comment, isComment, within⟩
    have blank := List.filter_eq_nil_iff.mp nothing '/' (within.subset (commentNotBlank isComment))
    exact blank (by decide)
  · unfold Token.afterComment
    generalize t.lead.toList = lead at gap
    intro free
    induction gap with
    | none => rfl
    | blank isGap more ih =>
      rw [List.filter_cons, gapBlank isGap]
      refine ih fun ⟨comment, isComment, within⟩ => free ⟨comment, isComment, ?_⟩
      exact within.trans (List.suffix_cons _ _).isInfix
    | comment isComment more => exact absurd ⟨_, isComment, (List.prefix_append _ _).isInfix⟩ free

def blankCodes : List Nat :=
  [9, 10, 11, 12, 13, 0x20, 0x85, 0xa0, 0x1680, 0x2000, 0x2001, 0x2002, 0x2003, 0x2004, 0x2005, 0x2006,
    0x2007, 0x2008, 0x2009, 0x200a, 0x2028, 0x2029, 0x202f, 0x205f, 0x3000]

theorem blankListed {c : Char} (blank : isBlank c = true) : c.toNat ∈ blankCodes := by
  simp only [isBlank, Bool.or_eq_true, Bool.and_eq_true, decide_eq_true_eq, beq_iff_eq] at blank
  simp only [blankCodes, List.mem_cons, List.not_mem_nil]
  omega

theorem nameNotBlank {c : Char} (continues : continuesName c = true) : isBlank c = false := by
  by_contra blank
  have refused : ∀ n ∈ blankCodes, continuesName (Char.ofNat n) = false := by decide +kernel
  have listed := refused _ (blankListed (by simpa using blank))
  rw [Char.ofNat_toNat, continues] at listed
  cases listed

theorem squeezeAppend (a b : String) : squeeze (a ++ b) = squeeze a ++ squeeze b := by
  simp [squeeze, String.toList_append, List.filter_append, String.ofList_append]

theorem squeezePlain {s : String} (plain : ∀ c ∈ s.toList, isBlank c = false) : squeeze s = s := by
  rw [squeeze, List.filter_eq_self.mpr (by simpa using plain), String.ofList_toList]

theorem squeezeJoin (parts : List String) :
    squeeze (String.join parts) = String.join (parts.map squeeze) := by
  induction parts with
  | nil => rfl
  | cons s rest ih => rw [String.join_cons, squeezeAppend, ih, List.map_cons, String.join_cons]

theorem spellEq (t : Token) (ts : List Token) :
    spell (t :: ts) = t.text ++ String.join (ts.map fun u => u.lead ++ u.text) := by
  rw [spell]
  generalize t.text = front
  induction ts generalizing front with
  | nil => simp
  | cons u us ih =>
    rw [List.foldl_cons, ih, List.map_cons, String.join_cons]
    simp only [String.append_assoc]

theorem squeezeSpell {t : Token} {ts : List Token} (plain : ∀ u ∈ t :: ts, squeeze u.text = u.text) :
    squeeze (spell (t :: ts)) = t.text ++ String.join (ts.map fun u => squeeze u.lead ++ u.text) := by
  obtain ⟨first, others⟩ := List.forall_mem_cons.mp plain
  rw [spellEq, squeezeAppend, first, squeezeJoin, List.map_map]
  refine congrArg (t.text ++ String.join ·) (List.map_congr_left fun u mem => ?_)
  rw [Function.comp_apply, squeezeAppend, others u mem]

theorem joinSame {ts : List Token} {f g : Token → String} :
    String.join (ts.map fun u => f u ++ g u) = String.join (ts.map g) ↔ ∀ u ∈ ts, f u = "" := by
  constructor
  · intro same
    have lengths : ∀ us : List Token, (String.join (us.map fun u => f u ++ g u)).length =
        (String.join (us.map f)).length + (String.join (us.map g)).length := by
      intro us
      induction us with
      | nil => rfl
      | cons u us ih =>
        simp only [List.map_cons, String.join_cons, String.length_append, ih]
        omega
    have nothing : String.join (ts.map f) = "" := by
      rw [← String.length_eq_zero_iff]
      have := lengths ts
      rw [same] at this
      omega
    intro u mem
    have flat := congrArg String.toList nothing
    simp only [String.toList_join, List.flatMap_map, String.toList_empty, List.flatMap_eq_nil_iff] at flat
    exact String.toList_eq_nil_iff.mp (flat u mem)
  · intro nothing
    refine congrArg String.join (List.map_congr_left fun u mem => ?_)
    rw [nothing u mem, String.empty_append]

theorem intersperseMore {sep x : String} {names : List String} (filled : names ≠ []) :
    (names ++ [x]).intersperse sep = names.intersperse sep ++ [sep, x] := by
  induction names with
  | nil => exact absurd rfl filled
  | cons first rest ih =>
    cases rest with
    | nil => rfl
    | cons second rest =>
      have inner := ih (List.cons_ne_nil second rest)
      simp only [List.cons_append, List.intersperse_cons_cons] at inner ⊢
      rw [inner]

theorem dottedParts {leaves : List Token} {names : List String} (dotted : Dotted leaves names) :
    names ≠ [] ∧ leaves.map Token.text = names.intersperse "." := by
  induction dotted with
  | one isWord => simp
  | more before isDot isWord ih =>
    obtain ⟨filled, parts⟩ := ih
    refine ⟨List.append_ne_nil_of_left_ne_nil filled _, ?_⟩
    rw [intersperseMore filled, List.map_append, parts, List.map_cons, List.map_singleton, isDot]

theorem dottedFilled {leaves : List Token} {names : List String} (dotted : Dotted leaves names) :
    leaves ≠ [] := by
  cases dotted <;> simp

theorem joinIntersperse (sep : String) (names : List String) :
    String.join (names.intersperse sep) = sep.intercalate names := by
  induction names with
  | nil => rfl
  | cons first rest ih =>
    cases rest with
    | nil => simp
    | cons second rest =>
      rw [List.intersperse_cons_cons, String.join_cons, String.join_cons, ih,
        String.intercalate_cons_cons, String.append_assoc]

theorem dottedPlain {leaves : List Token} {names : List String} (dotted : Dotted leaves names)
    (words : ∀ t ∈ leaves, t.kind = .word → ∀ c ∈ t.text.toList, continuesName c = true) :
    ∀ t ∈ leaves, squeeze t.text = t.text := by
  have word : ∀ t ∈ leaves, t.kind = .word → squeeze t.text = t.text := fun t mem isWord =>
    squeezePlain fun c inside => nameNotBlank (words t mem isWord c inside)
  clear words
  induction dotted with
  | one isWord => exact fun t mem => word t mem (by rwa [List.mem_singleton.mp mem])
  | more before isDot isWord ih =>
    obtain ⟨front, back⟩ := List.forall_mem_append.mp word
    refine List.forall_mem_append.mpr ⟨ih front, List.forall_mem_cons.mpr ⟨?_, ?_⟩⟩
    · rw [isDot]
      decide
    · exact List.forall_mem_singleton.mpr (back _ (by simp) isWord)

theorem laterInTail {α : Type} {x : α} {xs ys : List α} (part : x :: xs <:+: ys) : xs ⊆ ys.tail := by
  obtain ⟨front, back, rfl⟩ := part
  intro y mem
  cases front <;> simp [mem]

structure RecordedAs (name : Tree) (recorded : String) : Prop where
  parts : name.leaves.map Token.text = name.identifiers.intersperse "."
  /-- Of what stands before the later leaves only the blanks are left out. -/
  spelt : recorded = String.join ((name.leaves.take 1).map Token.text ++
    (name.leaves.drop 1).map fun t => squeeze t.lead ++ t.text)
  canonical : recorded = ".".intercalate name.identifiers ↔
    ∀ t ∈ name.leaves.drop 1, ¬ t.afterComment

theorem recordedDotted {source : String} {name : Tree} (part : name.leaves <:+: tokens source)
    (dotted : Dotted name.leaves name.identifiers) : RecordedAs name name.dotted := by
  obtain ⟨-, parts⟩ := dottedParts dotted
  have plain := dottedPlain dotted fun t mem => sourceWords source t (part.subset mem)
  have joined : ".".intercalate name.identifiers = String.join (name.leaves.map Token.text) := by
    rw [parts, joinIntersperse]
  obtain ⟨t, ts, shape⟩ := List.exists_cons_of_ne_nil (dottedFilled dotted)
  rw [shape] at part plain joined
  have spelt : name.dotted = t.text ++ String.join (ts.map fun u => squeeze u.lead ++ u.text) := by
    rw [Tree.dotted, text, shape, squeezeSpell plain]
  have gaps : ∀ u ∈ ts, Gap u.lead.toList := fun u mem =>
    sourceGaps source u (laterInTail part mem)
  refine ⟨parts, ?_, ?_⟩
  · simpa [shape] using spelt
  · rw [spelt, joined, List.map_cons, String.join_cons, String.append_right_inj, joinSame, shape]
    exact forall₂_congr fun u mem => squeezeGap (gaps u mem)

end Source

end JavaAudit
