import JavaAudit.Graph.Dot
import JavaAudit.Proofs.Graph.Statistics

/-! A drawing of a graph can be read back. The reader knows the part of the DOT language that has
settings, nodes and edges with attributes, in any order and layout. What it reads from a drawing are
the nodes and the uses of the graph, each once, nodes first and all in increasing order. -/
namespace JavaAudit.Dot

inductive Token where
  | word (text : String)
  | quoted (text : String)
  | arrow | equals | comma | semicolon
  | openBrace | closeBrace | openBracket | closeBracket
  deriving DecidableEq, Repr

def mark? (c : Char) : Option Token :=
  if c = '=' then some .equals
  else if c = ',' then some .comma
  else if c = ';' then some .semicolon
  else if c = '\x7b' then some .openBrace
  else if c = '\x7d' then some .closeBrace
  else if c = '[' then some .openBracket
  else if c = ']' then some .closeBracket
  else none

inductive Mode where
  | between | word | quoted | escaped | dash
  deriving DecidableEq, Repr

structure Scanner where
  mode : Mode
  text : List Char
  tokens : List Token
  deriving DecidableEq, Repr

namespace Scanner

def start : Scanner := ⟨.between, [], []⟩

def push (s : Scanner) (mode : Mode) (cs : List Char) : Scanner :=
  { s with mode := mode, text := s.text ++ cs }

def emit (s : Scanner) (token : Token) : Scanner := ⟨.between, [], s.tokens ++ [token]⟩

def endWord (s : Scanner) : Scanner := s.emit (.word (String.ofList s.text))

def isWordChar (c : Char) : Bool := c.isAlphanum || c == '_'

def begin? (s : Scanner) (c : Char) : Option Scanner :=
  if c.isWhitespace then some s
  else if isWordChar c then some (s.push .word [c])
  else if c = '"' then some (s.push .quoted [])
  else if c = '-' then some (s.push .dash [])
  else (mark? c).map s.emit

/-- Within quotes a backslash stands for itself unless a quote follows. -/
def take (s : Scanner) (c : Char) : Option Scanner :=
  match s.mode with
  | .between => s.begin? c
  | .word => if isWordChar c then some (s.push .word [c]) else s.endWord.begin? c
  | .quoted =>
      if c = '"' then some (s.emit (.quoted (String.ofList s.text)))
      else if c = '\\' then some (s.push .escaped [])
      else some (s.push .quoted [c])
  | .escaped => some (s.push .quoted (if c = '"' then [c] else ['\\', c]))
  | .dash => if c = '>' then some (s.emit .arrow) else none

def finish (s : Scanner) : Option (List Token) :=
  match s.mode with
  | .between => some s.tokens
  | .word => some s.endWord.tokens
  | .quoted | .escaped | .dash => none

end Scanner

def scan (cs : List Char) : Option (List Token) :=
  (cs.foldlM Scanner.take .start).bind Scanner.finish

inductive Statement where
  | setting (name value : String)
  | defaults (kind : String) (attributes : List (String × String))
  | node (name : String) (attributes : List (String × String))
  | edge (source target : String) (attributes : List (String × String))
  deriving DecidableEq, Repr

namespace Statement

def node? : Statement → Option String
  | node name _ => some name
  | _ => none

def edge? : Statement → Option (String × String)
  | edge source target _ => some (source, target)
  | _ => none

end Statement

def Token.value? : Token → Option String
  | word text | quoted text => some text
  | _ => none

def attributes? : List Token → Option (List (String × String))
  | [.word key, .equals, value, .closeBracket] => value.value?.map fun text => [(key, text)]
  | .word key :: .equals :: value :: .comma :: rest =>
      value.value?.bind fun text => (attributes? rest).map ((key, text) :: ·)
  | _ => none

def statement? : List Token → Option Statement
  | [.word name, .equals, .word value] => some (.setting name value)
  | .word kind :: .openBracket :: rest => (attributes? rest).map (.defaults kind)
  | .quoted name :: .openBracket :: rest => (attributes? rest).map (.node name)
  | .quoted source :: .arrow :: .quoted target :: .openBracket :: rest =>
      (attributes? rest).map (.edge source target)
  | _ => none

def statements? (first : List Token) : List Token → Option (List Statement)
  | [] => none
  | .semicolon :: rest =>
      (statement? first).bind fun s => (statements? [] rest).map (s :: ·)
  | .closeBrace :: rest => if first = [] ∧ rest = [] then some [] else none
  | token :: rest => statements? (first ++ [token]) rest

def read (text : String) : Option (List Statement) :=
  (scan text.toList).bind fun
    | .word "digraph" :: .word _ :: .openBrace :: rest => statements? [] rest
    | _ => none

namespace Scanner

def behind (before : List Token) (s : Scanner) : Scanner := { s with tokens := before ++ s.tokens }

theorem emitBehind (before : List Token) (s : Scanner) (token : Token) :
    (s.behind before).emit token = (s.emit token).behind before := by
  simp [emit, behind]

theorem beginBehind (before : List Token) (s : Scanner) (c : Char) :
    (s.behind before).begin? c = (s.begin? c).map (behind before) := by
  have marks : (s.behind before).emit = behind before ∘ s.emit := funext (emitBehind before s)
  unfold begin?
  split_ifs
  · rfl
  · rfl
  · rfl
  · rfl
  · rw [marks, Option.map_map]

theorem takeBehind (before : List Token) (s : Scanner) (c : Char) :
    (s.behind before).take c = (s.take c).map (behind before) := by
  have word : (s.behind before).endWord = s.endWord.behind before := emitBehind before s _
  have mode : (s.behind before).mode = s.mode := rfl
  have text : (s.behind before).text = s.text := rfl
  unfold take
  rw [mode]
  split
  · exact beginBehind before s c
  · split_ifs
    · rfl
    · rw [word, beginBehind]
  · rw [text, emitBehind]
    split_ifs <;> rfl
  · rfl
  · rw [emitBehind]
    split_ifs <;> rfl

theorem foldBehind (before : List Token) (cs : List Char) (s : Scanner) :
    cs.foldlM take (s.behind before) = (cs.foldlM take s).map (behind before) := by
  induction cs generalizing s with
  | nil => rfl
  | cons c cs ih =>
    rw [List.foldlM_cons, List.foldlM_cons, takeBehind]
    cases s.take c with
    | none => rfl
    | some t => exact ih t

end Scanner

/-- The characters make up these tokens, whatever was found before. -/
def Scans (cs : List Char) (tokens : List Token) : Prop :=
  ∀ before, cs.foldlM Scanner.take ⟨.between, [], before⟩ = some ⟨.between, [], before ++ tokens⟩

theorem Scans.of {cs : List Char} {tokens : List Token}
    (fresh : cs.foldlM Scanner.take .start = some ⟨.between, [], tokens⟩) : Scans cs tokens := by
  intro before
  have moved := Scanner.foldBehind before cs .start
  rw [fresh] at moved
  simpa [Scanner.behind, Scanner.start] using moved

theorem Scans.append {cs ds : List Char} {first second : List Token} (left : Scans cs first)
    (right : Scans ds second) : Scans (cs ++ ds) (first ++ second) := by
  intro before
  rw [List.foldlM_append, left]
  simpa using right (before ++ first)

theorem Scans.flatMap {α : Type} {xs : List α} {chars : α → List Char} {tokens : α → List Token}
    (each : ∀ x ∈ xs, Scans (chars x) (tokens x)) : Scans (xs.flatMap chars) (xs.flatMap tokens) := by
  induction xs with
  | nil => exact .of rfl
  | cons x xs ih =>
    rw [List.flatMap_cons, List.flatMap_cons]
    exact (each x List.mem_cons_self).append (ih fun y mem => each y (List.mem_cons_of_mem _ mem))

theorem Scans.scanned {cs : List Char} {tokens : List Token} (scans : Scans cs tokens) :
    scan cs = some tokens := by
  have whole := scans []
  rw [scan, Scanner.start, whole]
  rfl

def Plain (name : String) : Prop := ∀ c ∈ name.toList, c ≠ '"' ∧ c ≠ '\\'

instance (name : String) : Decidable (Plain name) :=
  decidable_of_iff (name.toList.all fun c => c ≠ '"' ∧ c ≠ '\\') (by simp [Plain])

theorem takeQuoted {cs : List Char} (plain : ∀ c ∈ cs, c ≠ '"' ∧ c ≠ '\\') (text : List Char)
    (tokens : List Token) :
    cs.foldlM Scanner.take ⟨.quoted, text, tokens⟩ = some ⟨.quoted, text ++ cs, tokens⟩ := by
  induction cs generalizing text with
  | nil => simp
  | cons c cs ih =>
    obtain ⟨quote, backslash⟩ := plain c List.mem_cons_self
    have rest := ih fun c mem => plain c (List.mem_cons_of_mem _ mem)
    simp [Scanner.take, Scanner.push, quote, backslash, rest]

theorem Scans.quoted {name : String} (plain : Plain name) :
    Scans ('"' :: name.toList ++ ['"']) [.quoted name] := by
  refine .of ?_
  have opened : Scanner.take .start '"' = some ⟨.quoted, [], []⟩ := by decide
  have closed : Scanner.take ⟨.quoted, name.toList, []⟩ '"' =
      some ⟨.between, [], [.quoted name]⟩ := by
    simp [Scanner.take, Scanner.emit]
  simp [opened, takeQuoted plain, closed]

def shade (known : String → Bool) (name : String) : String :=
  if known name then "solid" else "dashed"

def colour (e : DependencyEdge) : String := if e.source = e.target then "gray" else "black"

def nodeTokens (known : String → Bool) (name : String) : List Token :=
  [.quoted name, .openBracket, .word "label", .equals, .quoted (simpleName name), .comma,
    .word "style", .equals, .word (shade known name), .closeBracket, .semicolon]

def edgeTokens (e : DependencyEdge) : List Token :=
  [.quoted e.source, .arrow, .quoted e.target, .openBracket, .word "color", .equals,
    .word (colour e), .closeBracket, .semicolon]

theorem pieceChars {separator : Char} {cs piece : List Char}
    (mem : piece ∈ splitChars separator cs) : ∀ c ∈ piece, c ∈ cs := by
  induction cs generalizing piece with
  | nil => simp_all [splitChars]
  | cons first cs ih =>
    intro c inside
    unfold splitChars at mem
    split at mem
    · rcases List.mem_cons.mp mem with rfl | mem
      · simp at inside
      · exact List.mem_cons_of_mem _ (ih mem c inside)
    · split at mem
      · simp_all
      · next head pieces split =>
        rcases List.mem_cons.mp mem with rfl | mem
        · rcases List.mem_cons.mp inside with rfl | inside
          · exact List.mem_cons_self
          · exact List.mem_cons_of_mem _ (ih (by simp [split]) c inside)
        · exact List.mem_cons_of_mem _ (ih (by simp [split, mem]) c inside)

theorem Plain.simpleName {name : String} (plain : Plain name) : Plain (simpleName name) := by
  unfold JavaAudit.simpleName
  cases last : (segments name).getLast? with
  | none => exact plain
  | some segment =>
    obtain ⟨piece, mem, rfl⟩ := List.mem_map.mp (List.mem_of_getLast? last)
    intro c inside
    rw [Option.getD_some, String.toList_ofList] at inside
    exact plain c (pieceChars mem c inside)

theorem scansNode (known : String → Bool) {name : String} (plain : Plain name) :
    Scans (DependencyGraph.dotNode known name).toList (nodeTokens known name) := by
  have indent : Scans [' ', ' '] [] := .of (by decide)
  have label : Scans " [label=".toList [.openBracket, .word "label", .equals] := .of (by decide)
  have style : Scans (", style=" ++ shade known name ++ "];\n").toList
      [.comma, .word "style", .equals, .word (shade known name), .closeBracket, .semicolon] := by
    unfold shade
    split <;> exact .of (by decide)
  have whole := ((((indent.append (.quoted plain)).append label).append
    (.quoted plain.simpleName)).append style)
  simpa [DependencyGraph.dotNode, nodeTokens, shade] using whole

theorem scansEdge {e : DependencyEdge} (source : Plain e.source) (target : Plain e.target) :
    Scans (DependencyGraph.dotEdge e).toList (edgeTokens e) := by
  have indent : Scans [' ', ' '] [] := .of (by decide)
  have arrow : Scans " -> ".toList [.arrow] := .of (by decide)
  have color : Scans (" [color=" ++ colour e ++ "];\n").toList
      [.openBracket, .word "color", .equals, .word (colour e), .closeBracket, .semicolon] := by
    unfold colour
    split <;> exact .of (by decide)
  have whole := (((indent.append (.quoted source)).append arrow).append (.quoted target)).append color
  simpa [DependencyGraph.dotEdge, edgeTokens, colour] using whole

def nodeDrawn (known : String → Bool) (name : String) : Statement :=
  .node name [("label", simpleName name), ("style", shade known name)]

def edgeDrawn (e : DependencyEdge) : Statement := .edge e.source e.target [("color", colour e)]

theorem readNode (known : String → Bool) (name : String) (rest : List Token) :
    statements? [] (nodeTokens known name ++ rest) =
      (statements? [] rest).map (nodeDrawn known name :: ·) :=
  rfl

theorem readEdge (e : DependencyEdge) (rest : List Token) :
    statements? [] (edgeTokens e ++ rest) = (statements? [] rest).map (edgeDrawn e :: ·) :=
  rfl

theorem readEach {α : Type} {tokens : α → List Token} {drawn : α → Statement}
    (one : ∀ x rest, statements? [] (tokens x ++ rest) = (statements? [] rest).map (drawn x :: ·))
    (xs : List α) (rest : List Token) :
    statements? [] (xs.flatMap tokens ++ rest) = (statements? [] rest).map (xs.map drawn ++ ·) := by
  induction xs with
  | nil => simp
  | cons x xs ih =>
    rw [List.flatMap_cons, List.append_assoc, one, ih, Option.map_map]
    rfl

def settingTokens : List Token :=
  [.word "rankdir", .equals, .word "LR", .semicolon, .word "node", .openBracket, .word "shape",
    .equals, .word "box", .closeBracket, .semicolon]

def settings : List Statement := [.setting "rankdir" "LR", .defaults "node" [("shape", "box")]]

theorem readSettings (rest : List Token) :
    statements? [] (settingTokens ++ rest) = (statements? [] rest).map (settings ++ ·) := by
  have two : statements? [] (settingTokens ++ rest) =
      ((statements? [] rest).map (.defaults "node" [("shape", "box")] :: ·)).map
        (.setting "rankdir" "LR" :: ·) := rfl
  rw [two, Option.map_map]
  rfl

def drawing (g : DependencyGraph) (known : String → Bool) : List Statement :=
  settings ++ g.nodes.map (nodeDrawn known) ++ g.edges.map edgeDrawn

section Drawing

variable {g : DependencyGraph} (known : String → Bool) (nodes : ∀ name ∈ g.nodes, Plain name)
  (edges : ∀ e ∈ g.edges, Plain e.source ∧ Plain e.target)

include nodes edges

theorem scansDrawing : Scans (g.toDot known).toList
    (.word "digraph" :: .word "dependencies" :: .openBrace :: (settingTokens ++
      (g.nodes.flatMap (nodeTokens known) ++ (g.edges.flatMap edgeTokens ++ [.closeBrace])))) := by
  have opening : Scans
      "digraph dependencies \x7b\n  rankdir=LR;\n  node [shape=box];\n\n".toList
      (.word "digraph" :: .word "dependencies" :: .openBrace :: settingTokens) :=
    .of (by decide)
  have blank : Scans "\n".toList [] := .of (by decide)
  have closing : Scans "\x7d\n".toList [.closeBrace] := .of (by decide)
  have drawnNodes := Scans.flatMap fun name mem => scansNode known (nodes name mem)
  have drawnEdges := Scans.flatMap fun e mem => scansEdge (edges e mem).1 (edges e mem).2
  have whole := (((opening.append drawnNodes).append blank).append drawnEdges).append closing
  unfold DependencyGraph.toDot
  simpa only [String.toList_append, String.toList_join, List.flatMap_map, List.cons_append,
    List.append_assoc, List.nil_append] using whole

theorem readDrawing : read (g.toDot known) = some (drawing g known) := by
  have body := readSettings (g.nodes.flatMap (nodeTokens known) ++
    (g.edges.flatMap edgeTokens ++ [.closeBrace]))
  rw [readEach (readNode known), readEach readEdge] at body
  rw [read, (scansDrawing known nodes edges).scanned]
  exact body.trans (by simp [statements?, drawing])

end Drawing

/-- What the statements of a drawing tell: each node and each use once, nodes before uses and both in
increasing order, and which nodes are known. -/
structure Shows (statements : List Statement) (isNode known : String → Bool)
    (uses : String → String → Bool) : Prop where
  nodes : ∀ name, (statements.filterMap Statement.node?).count name = if isNode name then 1 else 0
  edges : ∀ source target, (statements.filterMap Statement.edge?).count (source, target) =
    if uses source target then 1 else 0
  shaded : ∀ name attributes, .node name attributes ∈ statements →
    (attributes.lookup "style" = some "solid" ↔ known name = true)
  nodesIncreasing : (statements.filterMap Statement.node?).Pairwise (· < ·)
  edgesIncreasing : (statements.filterMap Statement.edge?).Pairwise fun a b =>
    a.1 < b.1 ∨ a.1 = b.1 ∧ a.2 < b.2
  nodesFirst : ∃ front back, statements = front ++ back ∧ (∀ s ∈ front, s.edge? = none) ∧
    ∀ s ∈ back, s.node? = none

theorem Shows.determines {statements : List Statement} {isNode known isNode' known' : String → Bool}
    {uses uses' : String → String → Bool} (first : Shows statements isNode known uses)
    (second : Shows statements isNode' known' uses') :
    isNode = isNode' ∧ (∀ name, isNode name = true → known name = known' name) ∧ uses = uses' := by
  have once : ∀ {p q : Bool}, (if p then 1 else 0) = (if q then 1 else 0) → p = q := by decide
  refine ⟨funext fun name => ?_, fun name isNode => ?_, funext fun a => funext fun b => ?_⟩
  · exact once ((first.nodes name).symm.trans (second.nodes name))
  · have drawn : 0 < (statements.filterMap Statement.node?).count name := by
      rw [first.nodes, isNode]
      decide
    obtain ⟨s, mem, same⟩ := List.mem_filterMap.mp (List.count_pos_iff.mp drawn)
    cases s with
    | node other attributes =>
      cases same
      rw [Bool.eq_iff_iff, ← first.shaded name attributes mem, second.shaded name attributes mem]
    | setting | defaults | edge => cases same
  · exact once ((first.edges a b).symm.trans (second.edges a b))

end JavaAudit.Dot

namespace JavaAudit.DependencyGraph

theorem pairsIncreasing (m : NameMap NameSet) :
    (pairs m).Pairwise fun a b => a.1 < b.1 ∨ a.1 = b.1 ∧ a.2 < b.2 := by
  refine List.pairwise_flatMap.mpr ⟨fun entry _ => ?_, m.increasing.imp fun {a b} less => ?_⟩
  · exact List.pairwise_map.mpr (entry.2.increasing.imp fun less => .inr ⟨rfl, less⟩)
  · intro first left second right
    obtain ⟨_, _, rfl⟩ := List.mem_map.mp left
    obtain ⟨_, _, rfl⟩ := List.mem_map.mp right
    exact .inl less

theorem edgesPairs (g : DependencyGraph) :
    g.edges.map (fun e => (e.source, e.target)) = pairs g.dependencies := by
  simp only [edges, pairs, List.map_flatMap, List.map_map]
  rfl

def hasNode (g : DependencyGraph) (name : String) : Bool :=
  g.dependencies.contains name || g.usedBy.contains name

theorem memNodes {g : DependencyGraph} {name : String} :
    name ∈ g.nodes ↔ g.hasNode name = true := by
  rw [nodes, ← NameSet.memDef, NameSet.memOfList, List.mem_append, NameMap.memKeys,
    NameMap.memKeys, hasNode, Bool.or_eq_true]

open Dot (Statement)

section Shown

variable (g : DependencyGraph) (known : String → Bool)

theorem noEdgeFirst : ∀ s ∈ Dot.settings ++ g.nodes.map (Dot.nodeDrawn known), s.edge? = none := by
  simp [Dot.settings, Dot.nodeDrawn, Statement.edge?]

theorem noNodeLater : ∀ s ∈ g.edges.map Dot.edgeDrawn, s.node? = none := by
  simp [Dot.edgeDrawn, Statement.node?]

theorem drawnNodes : (Dot.drawing g known).filterMap Statement.node? = g.nodes := by
  have nodes : (g.nodes.map (Dot.nodeDrawn known)).filterMap Statement.node? = g.nodes := by
    rw [List.filterMap_map]
    exact List.filterMap_some
  rw [Dot.drawing, List.filterMap_append, List.filterMap_append, nodes,
    List.filterMap_eq_nil_iff.mpr (noNodeLater g), List.append_nil]
  rfl

theorem drawnEdges :
    (Dot.drawing g known).filterMap Statement.edge? = pairs g.dependencies := by
  rw [Dot.drawing, List.filterMap_append, List.filterMap_eq_nil_iff.mpr (noEdgeFirst g known),
    List.nil_append, List.filterMap_map, ← edgesPairs]
  exact congrFun (List.filterMap_eq_map (f := fun e => (e.source, e.target))) g.edges

theorem shadedDrawn {name : String} {attributes : List (String × String)}
    (mem : .node name attributes ∈ Dot.drawing g known) :
    attributes.lookup "style" = some "solid" ↔ known name = true := by
  have drawn : Dot.nodeDrawn known name = .node name attributes := by
    rcases List.mem_append.mp mem with mem | edge
    · rcases List.mem_append.mp mem with setting | node
      · simp [Dot.settings] at setting
      · obtain ⟨other, -, same⟩ := List.mem_map.mp node
        cases same
        rfl
    · exact absurd (noNodeLater g _ edge) (by simp [Statement.node?])
  cases drawn
  cases shade : known name <;> simp [Dot.shade, shade, List.lookup_cons]

theorem drawingShows : Dot.Shows (Dot.drawing g known) g.hasNode known g.hasEdge := by
  have order : g.nodes.Pairwise (· < ·) := NameSet.increasing _
  refine ⟨fun name => ?_, fun source target => ?_, fun name attributes => shadedDrawn g known, ?_,
    ?_, ⟨_, _, rfl, noEdgeFirst g known, noNodeLater g⟩⟩
  · rw [drawnNodes, (distinctOfIncreasing id order).count]
    simp only [memNodes]
  · have mem : (source, target) ∈ pairs g.dependencies ↔ g.hasEdge source target = true :=
      memPairs.trans hasEdgeIff.symm
    rw [drawnEdges, (pairsDistinct _).count]
    simp only [mem]
  · rwa [drawnNodes]
  · rw [drawnEdges]
    exact pairsIncreasing _

end Shown

section History

variable {history : List Call} (plain : ∀ c ∈ history, ∀ name ∈ c.names, Dot.Plain name)

include plain

theorem plainNodes : ∀ name ∈ (empty.calls history).2.nodes, Dot.Plain name := by
  have describes := historyDescribes history
  intro name mem
  rw [memNodes, hasNode, Bool.or_eq_true, describes.users, describes.used, or_assoc, ← memNamesGiven,
    namesGiven, List.mem_toFinset] at mem
  obtain ⟨c, given, names⟩ := List.mem_flatMap.mp mem
  exact plain c given name names

theorem plainEdges :
    ∀ e ∈ (empty.calls history).2.edges, Dot.Plain e.source ∧ Dot.Plain e.target := by
  intro e mem
  have pair : (e.source, e.target) ∈ pairs (empty.calls history).2.dependencies := by
    rw [← edgesPairs]
    exact List.mem_map_of_mem mem
  have given := ((historyDescribes history).targets e.source e.target).mp (memPairs.mp pair)
  exact ⟨plain _ given _ (by simp [Call.names]), plain _ given _ (by simp [Call.names])⟩

theorem historyRead (known : String → Bool) :
    Dot.read ((empty.calls history).2.toDot known) =
      some (Dot.drawing (empty.calls history).2 known) :=
  Dot.readDrawing known (plainNodes plain) (plainEdges plain)

end History

theorem drawingExact {history : List Call}
    (plain : ∀ c ∈ history, ∀ name ∈ c.names, Dot.Plain name) (known : String → Bool) :
    let g := (empty.calls history).2
    (∃ statements, Dot.read (g.toDot known) = some statements ∧
      Dot.Shows statements g.hasNode known g.hasEdge) ∧
    ∀ other : List Call, (∀ c ∈ other, ∀ name ∈ c.names, Dot.Plain name) →
      ∀ known' : String → Bool, (empty.calls other).2.toDot known' = g.toDot known →
        (empty.calls other).2.hasNode = g.hasNode ∧
        (∀ name, g.hasNode name = true → known' name = known name) ∧
        (empty.calls other).2.hasEdge = g.hasEdge := by
  intro g
  have read := historyRead plain known
  refine ⟨⟨_, read, drawingShows g known⟩, fun other plain' known' same => ?_⟩
  have statements : Dot.drawing (empty.calls other).2 known' = Dot.drawing g known := by
    rw [← Option.some.injEq, ← historyRead plain' known', same, read]
  have shows := drawingShows (empty.calls other).2 known'
  rw [statements] at shows
  obtain ⟨nodes, flags, uses⟩ := (drawingShows g known).determines shows
  exact ⟨nodes.symm, fun name isNode => (flags name isNode).symm, uses.symm⟩

theorem drawingExactHardNames :
    let history : List Call := [.edge "p.A" "x -> [y];", .node "q=r\x7d", .edge "p.A" "p.A"]
    let other : List Call := [.node "q=r\x7d", .edge "p.A" "p.A", .edge "p.A" "x -> [y];",
      .edge "p.A" "p.A", .node "x -> [y];"]
    let known (name : String) : Bool := name = "p.A"
    (∃ statements, Dot.read ((empty.calls history).2.toDot known) = some statements ∧
      (statements.filterMap Statement.node?).count "x -> [y];" = 1 ∧
      (statements.filterMap Statement.edge?).count ("p.A", "p.A") = 1) ∧
    (empty.calls other).2 ≠ (empty.calls history).2 ∧
    (empty.calls other).2.hasEdge = (empty.calls history).2.hasEdge := by
  intro history other known
  have plain : ∀ c ∈ history, ∀ name ∈ c.names, Dot.Plain name := by decide
  have plain' : ∀ c ∈ other, ∀ name ∈ c.names, Dot.Plain name := by decide
  obtain ⟨⟨statements, read, shows⟩, unique⟩ := drawingExact plain known
  have same : (empty.calls other).2.toDot known = (empty.calls history).2.toDot known := by
    decide +kernel
  refine ⟨⟨statements, read, shows.nodes _, shows.edges _ _⟩, by decide, ?_⟩
  exact (unique other plain' known same).2.2

end JavaAudit.DependencyGraph
