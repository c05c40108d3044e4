import JavaAudit.Proofs.Facts.Events

/-! The walk with a stack of its own finds what the recursion over the tree finds: the facts of a file are
those that the events of its tree add up to. -/
namespace JavaAudit
open Source Tree

namespace FileFacts

/-- Types are only put behind those that are there, and no type changes its name. -/
def Grows (f g : FileFacts) : Prop :=
  f.types.map TypeInfo.simpleName <+: g.types.map TypeInfo.simpleName

theorem growsRefl (f : FileFacts) : f.Grows f := List.prefix_refl _

theorem Grows.trans {f g h : FileFacts} (first : f.Grows g) (second : g.Grows h) : f.Grows h :=
  List.IsPrefix.trans first second

theorem Grows.length {f g : FileFacts} (grows : f.Grows g) : f.types.length ≤ g.types.length := by
  simpa using List.IsPrefix.length_le grows

theorem Grows.named {f g : FileFacts} (grows : f.Grows g) {i : Nat} (known : i < f.types.length) :
    g.types[i]?.map TypeInfo.simpleName = f.types[i]?.map TypeInfo.simpleName := by
  obtain ⟨more, whole⟩ := grows
  rw [← List.getElem?_map, ← List.getElem?_map, ← whole,
    List.getElem?_append_left (by simpa using known)]

theorem amendGrows (owner : Option Nat) {change : TypeInfo → TypeInfo} (f : FileFacts)
    (keeps : ∀ t, (change t).simpleName = t.simpleName) : f.Grows (f.amend owner change) := by
  cases owner with
  | none => exact growsRefl f
  | some i =>
    have names : (f.types.modify i change).map TypeInfo.simpleName =
        f.types.map TypeInfo.simpleName := by
      refine List.ext_getElem (by simp) fun n _ _ => ?_
      simp only [List.getElem_map, List.getElem_modify]
      split <;> simp [keeps]
    exact ⟨[], (List.append_nil _).trans names.symm⟩

theorem addGrows (file : String) (owner : Option Nat) (f : FileFacts) (e : Event) :
    f.Grows (f.add file owner e) := by
  cases e with
  | declares d => simp [Grows, add]
  | publicMethod name => exact amendGrows owner f fun _ => rfl
  | publicField name => exact amendGrows owner f fun _ => rfl
  | _ => exact growsRefl f

theorem foldGrows (file : String) (owner : Option Nat) (f : FileFacts) (es : List Event) :
    f.Grows (es.foldl (add file owner) f) := by
  induction es generalizing f with
  | nil => exact growsRefl f
  | cons e es ih => exact (addGrows file owner f e).trans (ih _)

theorem addPlain (file : String) (owner : Option Nat) (f : FileFacts) {e : Event}
    (plain : e.isMember = false) : f.add file owner e = f.add file none e := by
  cases e with
  | publicMethod name => cases plain
  | publicField name => cases plain
  | _ => rfl

theorem foldPlain (file : String) (owner : Option Nat) (f : FileFacts) {es : List Event}
    (plain : ∀ e ∈ es, e.isMember = false) :
    es.foldl (add file owner) f = es.foldl (add file none) f := by
  induction es generalizing f with
  | nil => rfl
  | cons e es ih =>
    rw [List.foldl_cons, List.foldl_cons, addPlain file owner f (plain e List.mem_cons_self)]
    exact ih _ fun d mem => plain d (List.mem_cons_of_mem _ mem)

theorem modifyAppend {α : Type} {change : α → α} {i : Nat} {xs : List α} (ys : List α)
    (inside : i < xs.length) : (xs ++ ys).modify i change = xs.modify i change ++ ys := by
  induction xs generalizing i with
  | nil => cases inside
  | cons x xs ih =>
    cases i with
    | zero => rfl
    | succ i =>
      simp only [List.cons_append, List.modify_succ_cons]
      rw [ih (Nat.lt_of_succ_lt_succ inside)]

theorem addAmended (file : String) {i : Nat} {change : TypeInfo → TypeInfo} {f : FileFacts}
    {e : Event} (known : i < f.types.length) :
    (f.amend (some i) change).add file none e = (f.add file none e).amend (some i) change := by
  cases e with
  | declares d => simp [add, amend, modifyAppend _ known]
  | _ => rfl

theorem foldAmended (file : String) {i : Nat} {change : TypeInfo → TypeInfo} {f : FileFacts}
    (es : List Event) (known : i < f.types.length) :
    es.foldl (add file none) (f.amend (some i) change) =
      (es.foldl (add file none) f).amend (some i) change := by
  induction es generalizing f with
  | nil => rfl
  | cons e es ih =>
    have grown := (addGrows file none f e).length
    rw [List.foldl_cons, addAmended file known, ih (by omega), List.foldl_cons]

def filled (es : List Event) (t : TypeInfo) : TypeInfo :=
  { t with
    publicMethods := (es.filterMap Event.publicMethod?).foldl NameSet.insert t.publicMethods
    publicFields := (es.filterMap Event.publicField?).foldl NameSet.insert t.publicFields }

theorem amendTwice (i : Nat) (first second : TypeInfo → TypeInfo) (f : FileFacts) :
    (f.amend (some i) first).amend (some i) second = f.amend (some i) (second ∘ first) := by
  simp [amend, List.modify_modify_eq]

theorem foldMembers (file : String) {i : Nat} {f : FileFacts} (es : List Event)
    (known : i < f.types.length) :
    es.foldl (add file (some i)) f =
      ((es.filter fun e => !e.isMember).foldl (add file none) f).amend (some i) (filled es) := by
  induction es generalizing f with
  | nil =>
    have same : filled [] = id := rfl
    simp [amend, same]
  | cons e es ih =>
    have grown := (addGrows file (some i) f e).length
    rw [List.foldl_cons, ih (by omega)]
    cases e with
    | publicMethod name =>
      rw [add, foldAmended file _ known, amendTwice]
      rfl
    | publicField name =>
      rw [add, foldAmended file _ known, amendTwice]
      rfl
    | _ => rfl

end FileFacts

open FileFacts

namespace Around

def scope (f : FileFacts) (a : Around) : Scope := ⟨a.path, a.owner? f⟩

def Within (f : FileFacts) (a : Around) : Prop := ∀ i, a.owner = some i → i < f.types.length

theorem Within.grow {f g : FileFacts} {a : Around} (within : a.Within f) (grows : f.Grows g) :
    a.Within g :=
  fun i owner => Nat.lt_of_lt_of_le (within i owner) grows.length

theorem scopeGrown {f g : FileFacts} {a : Around} (within : a.Within f) (grows : f.Grows g) :
    a.scope g = a.scope f := by
  cases owner : a.owner with
  | none => simp [scope, owner?, owner]
  | some i =>
    have owners : ∀ h : FileFacts, a.owner? h =
        (h.types[i]?.map TypeInfo.simpleName).map fun name => ⟨name, a.inInterface⟩ := by
      intro h
      simp [owner?, owner, Function.comp_def]
    rw [scope, scope, owners, owners, grows.named (within i owner)]

theorem anonymousWithin (f : FileFacts) (a : Around) : a.anonymous.Within f := nofun

end Around

theorem typeBodyEq (t : Tree) : t.isTypeBody = t.isMemberBody := rfl

namespace Survey

theorem foundVisit (f : FileFacts) (a : Around) (t : Tree) :
    (visit f a t).1 = JavaAudit.visit (a.scope f) [] t := by
  cases t with
  | leaf r token => rfl
  | node r k cs =>
    cases treated : treatment k <;> simp only [visit, JavaAudit.visit, treated, Around.scope]
    case type kind => cases (Source.Tree.node r k cs).inRole? .name <;> rfl

def next (f : FileFacts) (a : Around) (t : Tree) : List (Tree × Around) :=
  (visit f a t).2.map fun c => (c.1, c.2.around a)

theorem scopeBelowTreated (s : Scope) (r : Option Role) (k : Kind) (cs : List Tree) (c : Tree) :
    scopeBelow s (.node r k cs) c =
      match treatment k with
      | .package | .imports => none
      | .method => if c.role = some .body then some s else none
      | .type kind =>
          match (Source.Tree.node r k cs).inRole? .name with
          | some name => if c.isMemberBody then some (s.inner kind name.text) else none
          | none => some s
      | .creation | .constant => some (if c.isKind .classBody then s.anonymous else s)
      | _ => some s := by
  rw [scopeBelow, packageKind, importKind, methodKind, anonymousKind, declaresTreated]
  cases treated : treatment k
  case type kind => cases (Source.Tree.node r k cs).inRole? .name <;> rfl
  all_goals rfl

theorem filterFlatMap {α β : Type} (p : α → Bool) (f : α → List β) (xs : List α) :
    (xs.filter p).flatMap f = xs.flatMap fun x => if p x then f x else [] := by
  induction xs with
  | nil => rfl
  | cons x xs ih =>
    rw [List.filter_cons, List.flatMap_cons, ← ih]
    split <;> rfl

theorem alongEvents {g : FileFacts} {a : Around} {p : Passage} {s : Scope} (ts : List Tree)
    (same : (p.around a).scope g = s) :
    ((along p ts).map fun c => (c.1, c.2.around a)).flatMap (fun c => events (c.2.scope g) c.1) =
      ts.flatMap (events s) := by
  simp [along, List.flatMap_map, same]

theorem apartEvents {g : FileFacts} {a : Around} {s : Scope} (ts : List Tree)
    (same : a.scope g = s) :
    ((apartBodies ts).map fun c => (c.1, c.2.around a)).flatMap
        (fun c => events (c.2.scope g) c.1) =
      ts.flatMap fun t => events (if t.isKind .classBody then s.anonymous else s) t := by
  subst same
  rw [apartBodies, List.map_map, List.flatMap_map]
  refine List.flatMap_congr fun t _ => ?_
  cases body : t.isKind .classBody <;> simp only [Function.comp, body] <;> rfl

theorem nextEvents {f g : FileFacts} {a : Around} {t : Tree} (within : a.Within f)
    (grows : f.Grows g)
    (named : ∀ kind name, t.declares? = some (kind, name) →
      g.types[f.types.length]?.map TypeInfo.simpleName = some name) :
    (next f a t).flatMap (fun c => events (c.2.scope g) c.1) = innerEvents (a.scope f) t := by
  have same := Around.scopeGrown within grows
  cases t with
  | leaf r token => rfl
  | node r k cs =>
    rw [innerEvents, fieldKind, next]
    simp only [eventsOfEq, scopeBelowTreated]
    cases treated : treatment k <;> simp only [visit, treated]
    case package | imports => simp
    case method =>
      rw [alongEvents _ same, filterFlatMap]
      refine List.flatMap_congr fun c _ => ?_
      by_cases body : c.role = some .body <;> simp [body]
    case field =>
      rw [alongEvents _ same, valuesOf, List.flatMap_assoc, filterFlatMap]
      simp only [decide_true, if_true, valueEventsEq, eventsOfEq, filterFlatMap]
      refine List.flatMap_congr fun v _ => ?_
      congr 1
      refine List.flatMap_congr fun c _ => ?_
      by_cases value : c.role = some .value <;> simp [value]
    case creation | constant =>
      rw [apartEvents _ same]
      rfl
    case type kind =>
      cases name : (Source.Tree.node r k cs).inRole? .name with
      | none => exact alongEvents _ same
      | some node =>
        have known := named kind node.text (by
          simp [declaresTreated, treated, name])
        obtain ⟨t, found, text⟩ := Option.map_eq_some_iff.mp known
        rw [alongEvents (s := (a.scope f).inner kind node.text), filterFlatMap]
        · refine List.flatMap_congr fun c _ => ?_
          rw [typeBodyEq]
          cases c.isMemberBody <;> rfl
        · simp [Passage.around, Around.scope, Around.owner?, found, text, Scope.inner]
    all_goals exact alongEvents _ same

theorem nextPlain {f : FileFacts} {a : Around} {t : Tree} (plain : t.declares? = none) :
    ∀ c ∈ next f a t, c.2 = a ∨ c.2 = a.anonymous := by
  have straight : ∀ ts : List Tree, ∀ c ∈ (along .same ts).map fun c => (c.1, c.2.around a),
      c.2 = a ∨ c.2 = a.anonymous := by
    simp [along, Passage.around]
  have apart : ∀ ts : List Tree, ∀ c ∈ (apartBodies ts).map fun c => (c.1, c.2.around a),
      c.2 = a ∨ c.2 = a.anonymous := by
    intro ts c mem
    simp only [apartBodies, List.map_map, List.mem_map, Function.comp] at mem
    obtain ⟨t, -, rfl⟩ := mem
    cases t.isKind .classBody
    · exact .inl rfl
    · exact .inr rfl
  cases t with
  | leaf r token => simp [next, visit]
  | node r k cs =>
    rw [next]
    cases treated : treatment k <;> simp only [visit, treated]
    case package | imports => simp
    case creation | constant => exact apart cs
    case type kind =>
      have unnamed : (Source.Tree.node r k cs).inRole? .name = none := by
        simpa [declaresTreated, treated] using plain
      rw [unnamed]
      exact straight cs
    all_goals exact straight _

theorem nextInner {f : FileFacts} {a : Around} {t : Tree} {kind : TypeKind} {name : String}
    (declares : t.declares? = some (kind, name)) :
    ∀ c ∈ next f a t, c.2.owner = some f.types.length := by
  obtain ⟨r, k, cs, node, rfl, treated, named, -⟩ := typeNode declares
  intro c mem
  simp only [next, visit, treated, named, along, List.map_map, List.mem_map] at mem
  obtain ⟨body, -, rfl⟩ := mem
  rfl

def settle (file : String) (f : FileFacts) (c : Tree × Around) : FileFacts :=
  (events (c.2.scope f) c.1).foldl (add file c.2.owner) f

theorem settleGrows (file : String) (f : FileFacts) (c : Tree × Around) :
    f.Grows (settle file f c) := foldGrows ..

theorem settleAll (file : String) {f g : FileFacts} {owner : Option Nat} (cs : List (Tree × Around))
    (grows : f.Grows g) (within : ∀ c ∈ cs, c.2.Within f)
    (owned : ∀ c ∈ cs, c.2.owner = owner ∨ c.2.owner = none) :
    cs.foldl (settle file) g =
      (cs.flatMap fun c => events (c.2.scope f) c.1).foldl (add file owner) g := by
  induction cs generalizing g with
  | nil => rfl
  | cons c cs ih =>
    have first : settle file g c = (events (c.2.scope f) c.1).foldl (add file owner) g := by
      rw [settle, Around.scopeGrown (within c List.mem_cons_self) grows]
      rcases owned c List.mem_cons_self with same | none
      · rw [same]
      · have free : (c.2.scope f).owner = .none := by simp [Around.scope, Around.owner?, none]
        rw [none, foldPlain file owner g (eventsFree free c.1)]
    rw [List.foldl_cons, List.flatMap_cons, List.foldl_append, ← first]
    exact ih (grows.trans (settleGrows file g c)) (fun d mem => within d (List.mem_cons_of_mem _ mem))
      fun d mem => owned d (List.mem_cons_of_mem _ mem)

theorem visitPlain {s : Scope} {t : Tree} (plain : t.declares? = none) (inner : List Event) :
    JavaAudit.visit s inner t = JavaAudit.visit s [] t := by
  cases t with
  | leaf r token => rfl
  | node r k cs =>
    cases treated : treatment k <;> simp only [JavaAudit.visit, treated]
    case type kind =>
      have unnamed : (Source.Tree.node r k cs).inRole? .name = none := by
        simpa [declaresTreated, treated] using plain
      rw [unnamed]

theorem settlePlain (file : String) {f : FileFacts} {a : Around} {t : Tree} (within : a.Within f)
    (plain : t.declares? = none) :
    settle file f (t, a) =
      (next f a t).foldl (settle file) ((visit f a t).1.foldl (add file a.owner) f) := by
  have none : ∀ kind name, t.declares? = some (kind, name) →
      f.types[f.types.length]?.map TypeInfo.simpleName = some name := by
    simp [plain]
  have inner := nextEvents within (growsRefl f) none
  rw [settleAll file (next f a t) (foldGrows file a.owner f _), inner, foundVisit, settle, eventsEq,
    visitPlain plain, List.foldl_append, outside, plain]
  · rfl
  · intro c mem
    rcases nextPlain plain c mem with same | same <;> rw [same]
    · exact within
    · exact Around.anonymousWithin f a
  · intro c mem
    rcases nextPlain plain c mem with same | same <;> rw [same]
    · exact .inl rfl
    · exact .inr rfl

theorem addFilled (file : String) {f : FileFacts} {s : Scope} {kind : TypeKind} {name : String}
    {t : Tree} (inner : List Event) :
    f.add file none (.declares (declaredIn s kind name t inner)) =
      (f.add file none (.declares (declaredIn s kind name t []))).amend (some f.types.length)
        (filled inner) := by
  have last : ∀ (xs : List TypeInfo) x, (xs ++ [x]).modify xs.length (filled inner) =
      xs ++ [filled inner x] :=
    fun xs x => List.modifyTailIdx_add _ 0 xs [x]
  simp only [add, amend, last]
  rfl

theorem visitType {t : Tree} {kind : TypeKind} {name : String} (s : Scope)
    (declares : t.declares? = some (kind, name)) :
    ∃ uses : List Event, (∀ e ∈ uses, e.isMember = false) ∧
      ∀ inner, JavaAudit.visit s inner t = .declares (declaredIn s kind name t inner) :: uses := by
  obtain ⟨r, k, cs, node, rfl, treated, named, rfl⟩ := typeNode declares
  refine ⟨usesOf (typeNamesOf (cs.filter isHeritage)), fun e mem => ?_, fun inner => ?_⟩
  · rw [Event.isMemberTag, usesTag mem]
    rfl
  · simp only [JavaAudit.visit, treated, named]

theorem foundLonger (file : String) {f : FileFacts} {a : Around} {t : Tree} {kind : TypeKind}
    {name : String} (declares : t.declares? = some (kind, name)) :
    f.types.length < ((visit f a t).1.foldl (add file a.owner) f).types.length := by
  obtain ⟨uses, -, found⟩ := visitType (a.scope f) declares
  rw [foundVisit, found, List.foldl_cons]
  refine Nat.lt_of_lt_of_le ?_ (foldGrows file a.owner _ uses).length
  simp [add]

theorem nextWithin (file : String) {f : FileFacts} {a : Around} (t : Tree) (within : a.Within f) :
    ∀ c ∈ next f a t, c.2.Within ((visit f a t).1.foldl (add file a.owner) f) := by
  intro c mem
  cases declares : t.declares? with
  | none =>
    have grows := foldGrows file a.owner f (visit f a t).1
    rcases nextPlain declares c mem with same | same <;> rw [same]
    · exact within.grow grows
    · exact Around.anonymousWithin _ a
  | some declaration =>
    intro i owner
    rw [nextInner declares c mem] at owner
    cases owner
    exact foundLonger file declares

theorem settleType (file : String) {f : FileFacts} {a : Around} {t : Tree} {kind : TypeKind}
    {name : String} (within : a.Within f) (declares : t.declares? = some (kind, name)) :
    settle file f (t, a) =
      (next f a t).foldl (settle file) ((visit f a t).1.foldl (add file a.owner) f) := by
  obtain ⟨uses, plainUses, found⟩ := visitType (a.scope f) declares
  -- The facts with the type and no members in it yet.
  let started := f.add file none (.declares (declaredIn (a.scope f) kind name t []))
  let known := uses.foldl (add file none) started
  have knownEq : (visit f a t).1.foldl (add file a.owner) f = known := by
    rw [foundVisit, found, List.foldl_cons, foldPlain file a.owner _ plainUses]
    rfl
  have grows : started.Grows known := foldGrows file none started uses
  have length : f.types.length < started.types.length := by simp [started, add]
  have inside : f.types.length < known.types.length := knownEq ▸ foundLonger file declares
  have named : known.types[f.types.length]?.map TypeInfo.simpleName = some name := by
    rw [grows.named length]
    simp [started, add, Declared.toTypeInfo, declaredIn, declared]
  have inner : (next f a t).flatMap (fun c => events (c.2.scope known) c.1) =
      innerEvents (a.scope f) t := by
    refine nextEvents within ((addGrows file none f _).trans grows) fun other text same => ?_
    rw [declares] at same
    cases same
    exact named
  have owners : ∀ c ∈ next f a t, c.2.owner = some f.types.length := nextInner declares
  have below : ∀ c ∈ next f a t, c.2.Within known := knownEq ▸ nextWithin file t within
  rw [knownEq, settleAll file (next f a t) (growsRefl known) below fun c mem => .inl (owners c mem),
    inner, foldMembers file _ inside, ← foldAmended file _ inside, ← foldAmended file uses length,
    ← addFilled, settle, eventsEq, found, outside, declares, foldPlain file a.owner f,
    List.foldl_append]
  · rfl
  · intro e mem
    simp only [List.mem_append, List.mem_cons] at mem
    rcases mem with (rfl | mem) | mem
    · rfl
    · exact plainUses e mem
    · simpa using (List.mem_filter.mp mem).2

theorem settleTurn (file : String) {f : FileFacts} {a : Around} (t : Tree) (within : a.Within f) :
    settle file f (t, a) =
      (next f a t).foldl (settle file) ((visit f a t).1.foldl (add file a.owner) f) := by
  cases declares : t.declares? with
  | none => exact settlePlain file within declares
  | some declaration => exact settleType file within declares

def entries (s : Survey) : List (Tree × Around) :=
  s.stack.map fun c => (c.1, s.arounds[c.2]?.getD {})

def Numbered (s : Survey) : Prop := ∀ c ∈ s.stack, c.2 < s.arounds.size

section Entering

variable {s : Survey} {here : Nat} {a : Around} (around : s.arounds[here]? = some a)
include around

theorem enterAround (c : Tree × Passage) : (s.enter here c).arounds[here]? = some a := by
  obtain ⟨t, p⟩ := c
  obtain ⟨bound, same⟩ := Array.getElem?_eq_some_iff.mp around
  cases p with
  | same => exact around
  | anonymous => simp [enter, Array.getElem?_push_lt bound, same]
  | inner b => simp [enter, Array.getElem?_push_lt bound, same]

theorem enterNumbered (numbered : s.Numbered) (c : Tree × Passage) : (s.enter here c).Numbered := by
  obtain ⟨t, p⟩ := c
  obtain ⟨bound, -⟩ := Array.getElem?_eq_some_iff.mp around
  intro d mem
  cases p with
  | same =>
    rcases List.mem_cons.mp mem with rfl | mem
    · exact bound
    · exact numbered d mem
  | anonymous | inner b =>
    rw [enter, Array.size_push]
    · rcases List.mem_cons.mp mem with rfl | mem
      · exact Nat.lt_succ_self _
      · exact Nat.lt_succ_of_lt (numbered d mem)
    · exact nofun

theorem enterEntries (numbered : s.Numbered) (c : Tree × Passage) :
    (s.enter here c).entries = (c.1, c.2.around a) :: s.entries := by
  have kept : ∀ b, (s.stack.map fun c => (c.1, (s.arounds.push b)[c.2]?.getD {})) = s.entries := by
    intro b
    refine List.map_congr_left fun c mem => ?_
    rw [Array.getElem?_push_lt (numbered c mem), Array.getElem?_eq_getElem (numbered c mem)]
  obtain ⟨t, p⟩ := c
  cases p with
  | same => simp [enter, entries, around, Passage.around]
  | anonymous | inner b =>
    rw [entries, enter, List.map_cons, kept, around]
    · simp
    · exact nofun

theorem enterAll (numbered : s.Numbered) (next : List (Tree × Passage)) :
    let entered := next.foldr (fun c s => s.enter here c) s
    entered.facts = s.facts ∧ entered.Numbered ∧ entered.arounds[here]? = some a ∧
      entered.entries = (next.map fun c => (c.1, c.2.around a)) ++ s.entries := by
  induction next with
  | nil => exact ⟨rfl, numbered, around, rfl⟩
  | cons c next ih =>
    obtain ⟨facts, numbered, around, entries⟩ := ih
    refine ⟨?_, enterNumbered around numbered c, enterAround around c, ?_⟩
    · rw [← facts, List.foldr_cons]
      obtain ⟨t, p⟩ := c
      cases p <;> rfl
    · rw [List.foldr_cons, enterEntries around numbered, entries]
      rfl

theorem turnEntries (file : String) (numbered : s.Numbered) (t : Tree) :
    (s.turn file t here).facts = (visit s.facts a t).1.foldl (add file a.owner) s.facts ∧
      (s.turn file t here).Numbered ∧
      (s.turn file t here).entries = next s.facts a t ++ s.entries := by
  let known : Survey := { s with facts := (visit s.facts a t).1.foldl (add file a.owner) s.facts }
  obtain ⟨facts, numbered, -, listed⟩ :=
    enterAll (s := known) around numbered (visit s.facts a t).2
  rw [turn, around]
  exact ⟨facts, numbered, listed⟩

end Entering

theorem runEnd (file : String) {s : Survey} (empty : s.stack = []) : s.run file = s.facts := by
  rw [run]
  split
  · rfl
  · next filled => simp [empty] at filled

theorem runStep (file : String) {s : Survey} {t : Tree} {here : Nat} {rest : List (Tree × Nat)}
    (filled : s.stack = (t, here) :: rest) :
    s.run file = (turn file { s with stack := rest } t here).run file := by
  rw [run]
  split
  · next empty => simp [filled] at empty
  · next same =>
    rw [filled] at same
    cases same
    rfl

/-- The walk comes to what settling the trees on the stack one after the other comes to. -/
theorem runSettles (file : String) (s : Survey) (numbered : s.Numbered)
    (within : ∀ c ∈ s.entries, c.2.Within s.facts) :
    s.run file = s.entries.foldl (settle file) s.facts := by
  induction s using run.induct file with
  | case1 s empty => rw [runEnd file empty, entries, empty, List.map_nil, List.foldl_nil]
  | case2 s t here rest filled ih =>
    have bound : here < s.arounds.size := numbered (t, here) (by rw [filled]; exact List.mem_cons_self)
    obtain ⟨a, around⟩ : ∃ a, s.arounds[here]? = some a := ⟨_, Array.getElem?_eq_getElem bound⟩
    have listed : s.entries = (t, a) :: entries { s with stack := rest } := by
      simp [entries, filled, around]
    rw [listed] at within ⊢
    obtain ⟨first, others⟩ := List.forall_mem_cons.mp within
    obtain ⟨facts, numbered, waiting⟩ := turnEntries (s := { s with stack := rest }) around file
      (fun c mem => numbered c (by rw [filled]; exact List.mem_cons_of_mem _ mem)) t
    rw [runStep file filled, ih numbered, facts, waiting, List.foldl_append, List.foldl_cons,
      settleTurn file t first]
    intro c mem
    rw [facts]
    rw [waiting] at mem
    rcases List.mem_append.mp mem with mem | mem
    · exact nextWithin file t first c mem
    · exact (others c mem).grow (foldGrows ..)

end Survey

theorem factsOfEvents (tree : Tree) (file : String) :
    factsOf tree file = (events {} tree).foldl (FileFacts.add file none) .empty := by
  rw [factsOf, Survey.runSettles]
  · rfl
  · simp [Survey.Numbered]
  · simp [Survey.entries, Around.Within]

end JavaAudit
