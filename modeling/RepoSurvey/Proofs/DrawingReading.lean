import RepoSurvey.Graph.Dot
import RepoSurvey.Proofs.GraphStatistics

/-!
Drawing instructions, read. A reader takes a text apart into words, signs and identifiers between quotation
marks, and these into statements. In the text of a graph it finds the nodes with their shapes and the edges,
each once and in the order in which they first occur. So the text of a graph tells its edges.
-/

namespace RepoSurvey

/-- What a drawing instruction tells: identifiers with their shapes, and arrows from one identifier to
another, both in the order in which they are written. -/
structure Drawing where
  shapes : List (String × String) := []
  arrows : List (String × String) := []
  deriving Repr, DecidableEq

namespace Drawing

/-- The identifiers of one shape. -/
def ofShape (d : Drawing) (shape : String) : List String :=
  (d.shapes.filter fun s => s.2 = shape).map Prod.fst

inductive Token where
  | word (text : String)
  /-- What stands between two quotation marks, less the backslashes that mark characters in it. -/
  | identifier (name : String)
  | sign (c : Char)
  deriving Repr, DecidableEq

/-- What a reader is in the middle of. The part that it has is kept backwards. -/
inductive Stage where
  | between
  | word (back : List Char)
  | identifier (back : List Char)
  /-- In an identifier, behind a backslash. -/
  | marked (back : List Char)

/-- The tokens that have been found, backwards, and the stage that has been reached. -/
structure Reader where
  found : List Token := []
  stage : Stage := .between

/-- Takes a character with which something begins. -/
def Reader.enter (r : Reader) (c : Char) : Reader :=
  if c = ' ' ∨ c = '\n' then { r with stage := .between }
  else if c = '"' then { r with stage := .identifier [] }
  else if c.isAlphanum then { r with stage := .word [c] }
  else ⟨.sign c :: r.found, .between⟩

/-- Takes the next character. A backslash in an identifier marks a quotation mark or a backslash. -/
def Reader.next (r : Reader) (c : Char) : Option Reader :=
  match r.stage with
  | .between => some (r.enter c)
  | .word back =>
    if c.isAlphanum then some { r with stage := .word (c :: back) }
    else some ({ r with found := .word (String.ofList back.reverse) :: r.found }.enter c)
  | .identifier back =>
    if c = '"' then some ⟨.identifier (String.ofList back.reverse) :: r.found, .between⟩
    else if c = '\\' then some { r with stage := .marked back }
    else some { r with stage := .identifier (c :: back) }
  | .marked back =>
    if c = '\\' ∨ c = '"' then some { r with stage := .identifier (c :: back) } else none

/-- The tokens of a text that ends here, which it does not within an identifier. -/
def Reader.finish (r : Reader) : Option (List Token) :=
  match r.stage with
  | .between => some r.found.reverse
  | .word back => some (.word (String.ofList back.reverse) :: r.found).reverse
  | .identifier _ | .marked _ => none

def tokens (text : List Char) : Option (List Token) :=
  (text.foldlM Reader.next {}).bind Reader.finish

/-- Reads statements up to the brace that closes them. Attributes of the drawing as a whole and of all
nodes tell nothing of any one node. -/
def statements : List Token → Option Drawing
  | [.sign '\x7d'] => some {}
  | .word _ :: .sign '=' :: .word _ :: .sign ';' :: rest => statements rest
  | .word _ :: .sign '[' :: .word _ :: .sign '=' :: .word _ :: .sign ']' :: .sign ';' :: rest =>
    statements rest
  | .identifier a :: .sign '[' :: .word "shape" :: .sign '=' :: .word shape :: .sign ']' ::
      .sign ';' :: rest =>
    (statements rest).map fun d => { d with shapes := (a, shape) :: d.shapes }
  | .identifier a :: .sign '-' :: .sign '>' :: .identifier b :: .sign ';' :: rest =>
    (statements rest).map fun d => { d with arrows := (a, b) :: d.arrows }
  | _ => none

def read (text : String) : Option Drawing :=
  match tokens text.toList with
  | some (.word "digraph" :: .word _ :: .sign '\x7b' :: rest) => statements rest
  | _ => none

/-! ### Tokens -/

/-- Between two tokens, a reader finds some tokens in a text and is between two tokens again. -/
def Finds (text : List Char) (ts : List Token) : Prop :=
  ∀ found : List Token,
    text.foldlM Reader.next ⟨found, .between⟩ = some ⟨ts.reverse ++ found, .between⟩

variable {text text' : List Char} {ts ts' : List Token}

theorem Finds.nil : Finds [] [] := fun _ => rfl

theorem Finds.append (h : Finds text ts) (h' : Finds text' ts') : Finds (text ++ text') (ts ++ ts') := by
  intro found
  rw [List.foldlM_append, h found]
  calc text'.foldlM Reader.next ⟨ts.reverse ++ found, .between⟩
      = some ⟨ts'.reverse ++ (ts.reverse ++ found), .between⟩ := h' _
    _ = some ⟨(ts ++ ts').reverse ++ found, .between⟩ := by
      rw [List.reverse_append, List.append_assoc]

theorem Finds.tokens_eq (h : Finds text ts) : tokens text = some ts := by
  unfold tokens
  rw [h [], Option.bind_some, List.append_nil]
  exact congrArg some (List.reverse_reverse ts)

theorem Finds.flatMap {α : Type} {f : α → List Char} {g : α → List Token} (h : ∀ a, Finds (f a) (g a))
    (l : List α) : Finds (l.flatMap f) (l.flatMap g) := by
  induction l with
  | nil => exact .nil
  | cons a l ih =>
    rw [List.flatMap_cons, List.flatMap_cons]
    exact (h a).append ih

/-- Within an identifier, each character of a name is read from what is written for it. -/
theorem foldlM_marked (cs back : List Char) (found : List Token) :
    (cs.flatMap fun c => if c = '\\' ∨ c = '"' then ['\\', c] else [c]).foldlM Reader.next
      ⟨found, .identifier back⟩ = some ⟨found, .identifier (cs.reverse ++ back)⟩ := by
  induction cs generalizing back with
  | nil => rfl
  | cons c cs ih =>
    have hc : (if c = '\\' ∨ c = '"' then ['\\', c] else [c]).foldlM Reader.next
        ⟨found, .identifier back⟩ = some ⟨found, .identifier (c :: back)⟩ := by
      by_cases h : c = '\\' ∨ c = '"'
      · simp [Reader.next, h]
      · obtain ⟨hback, hquote⟩ := not_or.mp h
        simp [Reader.next, hback, hquote]
    rw [List.flatMap_cons, List.foldlM_append, hc, List.reverse_cons, List.append_assoc]
    exact ih (c :: back)

theorem finds_dotIdentifier (name : String) :
    Finds (Graph.dotIdentifier name) [.identifier name] := by
  intro found
  rw [Graph.dotIdentifier_eq, List.foldlM_append, List.foldlM_cons]
  calc _ = (some ⟨found, .identifier (name.toList.reverse ++ [])⟩ : Option Reader) >>= fun r =>
            ['"'].foldlM Reader.next r := by
        rw [← foldlM_marked]
        rfl
    _ = some ⟨[.identifier name].reverse ++ found, .between⟩ := by
        simp [Reader.next]

/-- A name is told by its identifier. -/
theorem dotIdentifier_injective {a b : String} (h : Graph.dotIdentifier a = Graph.dotIdentifier b) :
    a = b := by
  have hread := (finds_dotIdentifier a).tokens_eq
  rw [h, (finds_dotIdentifier b).tokens_eq] at hread
  simpa using hread.symm

/-! ### The text of a graph -/

def headTokens : List Token :=
  [.word "digraph", .word "dependencies", .sign '\x7b', .word "rankdir", .sign '=', .word "LR", .sign ';',
    .word "node", .sign '[', .word "shape", .sign '=', .word "box", .sign ']', .sign ';']

def nodeTokens (a : Endpoint) : List Token :=
  [.identifier a.name, .sign '[', .word "shape", .sign '=', .word a.shape, .sign ']', .sign ';']

def arrowTokens (source target : String) : List Token :=
  [.identifier source, .sign '-', .sign '>', .identifier target, .sign ';']

theorem finds_head : Finds "digraph dependencies \x7b\n  rankdir=LR;\n  node [shape=box];\n\n".toList headTokens :=
  fun _ => rfl

theorem finds_shape (a : Endpoint) : Finds s!" [shape={a.shape}];\n".toList
    [.sign '[', .word "shape", .sign '=', .word a.shape, .sign ']', .sign ';'] := by
  have htext : s!" [shape={a.shape}];\n".toList =
      " [shape=".toList ++ a.shape.toList ++ "];\n".toList := by
    rw [← String.toList_append, ← String.toList_append]
    rfl
  rw [htext]
  intro found
  cases a with
  | file name =>
    rw [Endpoint.shape]
    rfl
  | module name =>
    rw [Endpoint.shape]
    rfl

theorem finds_dotNode (a : Endpoint) : Finds (Graph.dotNode a) (nodeTokens a) := by
  have hindent : Finds [' ', ' '] [] := fun _ => rfl
  exact (hindent.append (finds_dotIdentifier a.name)).append (finds_shape a)

theorem finds_dotLink (source target : String) :
    Finds (Graph.dotLink source target) (arrowTokens source target) := by
  have hindent : Finds [' ', ' '] [] := fun _ => rfl
  have harrow : Finds [' ', '-', '>', ' '] [.sign '-', .sign '>'] := fun _ => rfl
  have hend : Finds [';', '\n'] [.sign ';'] := fun _ => rfl
  exact (((hindent.append (finds_dotIdentifier source)).append harrow).append
    (finds_dotIdentifier target)).append hend

end Drawing

namespace Graph

open Drawing

theorem nameAt_idxOf {v : View} {a : Endpoint} (h : a ∈ v.nodes) : v.nameAt (v.nodes.idxOf a) = a.name := by
  have hplace : v.nodes[v.nodes.idxOf a]? = some a := List.getElem?_idxOf h
  rw [View.nameAt, hplace]
  rfl

/-- The links of a graph are written as its edges, each once. -/
theorem flatMap_dotLink (g : Graph) :
    g.view.links.flatMap (fun l => dotLink (g.view.nameAt l.1) (g.view.nameAt l.2)) =
      g.edges.eraseDups.flatMap fun e => dotLink e.source e.target := by
  rw [g.shows_view.links, List.flatMap_map]
  apply List.flatMap_congr
  intro e he
  have hends {a : Endpoint} (ha : a ∈ e.ends) : g.view.nameAt (g.view.nodes.idxOf a) = a.name :=
    nameAt_idxOf (mem_view_of_mem_ends (List.mem_eraseDups.mp he) ha)
  have hsource := hends (a := .file e.source) (by simp [Edge.ends])
  have htarget := hends (a := .module e.target) (by simp [Edge.ends])
  rw [Edge.placesIn, hsource, htarget]
  rfl

/-- The text of a graph: its head, its nodes, and its edges, each once. -/
theorem toList_dot (g : Graph) : g.dot.toList =
    "digraph dependencies \x7b\n  rankdir=LR;\n  node [shape=box];\n\n".toList ++
      (g.view.nodes.flatMap dotNode ++ (['\n'] ++
        (g.edges.eraseDups.flatMap (fun e => dotLink e.source e.target) ++ ['\x7d', '\n']))) := by
  unfold dot
  dsimp only
  rw [String.toList_ofList, flatMap_dotLink]
  simp only [List.append_assoc, List.cons_append, List.nil_append]

/-- The tokens of the text of a graph. -/
theorem finds_dot (g : Graph) : Finds g.dot.toList
    (headTokens ++ (g.view.nodes.flatMap nodeTokens ++
      (g.edges.eraseDups.flatMap (fun e => arrowTokens e.source e.target) ++ [.sign '\x7d']))) := by
  have hnodes : Finds (g.view.nodes.flatMap dotNode) (g.view.nodes.flatMap nodeTokens) :=
    .flatMap finds_dotNode _
  have hedges : Finds (g.edges.eraseDups.flatMap fun e => dotLink e.source e.target)
      (g.edges.eraseDups.flatMap fun e => arrowTokens e.source e.target) := by
    apply Finds.flatMap
    intro e
    exact finds_dotLink e.source e.target
  have hline : Finds ['\n'] [] := fun _ => rfl
  have hclose : Finds ['\x7d', '\n'] [.sign '\x7d'] := fun _ => rfl
  have hall := finds_head.append (hnodes.append (hline.append (hedges.append hclose)))
  rw [List.nil_append, ← toList_dot] at hall
  exact hall

end Graph

namespace Drawing

theorem statements_nodes (nodes : List Endpoint) (rest : List Token) :
    statements (nodes.flatMap nodeTokens ++ rest) =
      (statements rest).map fun d => { d with shapes := nodes.map (fun a => (a.name, a.shape)) ++ d.shapes } := by
  induction nodes with
  | nil => simp
  | cons a nodes ih =>
    have hnode : statements (nodeTokens a ++ (nodes.flatMap nodeTokens ++ rest)) =
        (statements (nodes.flatMap nodeTokens ++ rest)).map fun d =>
          { d with shapes := (a.name, a.shape) :: d.shapes } := rfl
    rw [List.flatMap_cons, List.append_assoc, hnode, ih, Option.map_map]
    rfl

theorem statements_arrows (edges : List Edge) (rest : List Token) :
    statements (edges.flatMap (fun e => arrowTokens e.source e.target) ++ rest) =
      (statements rest).map fun d =>
        { d with arrows := edges.map (fun e => (e.source, e.target)) ++ d.arrows } := by
  induction edges with
  | nil => simp
  | cons e edges ih =>
    have harrow (more : List Token) : statements (arrowTokens e.source e.target ++ more) =
        (statements more).map fun d => { d with arrows := (e.source, e.target) :: d.arrows } := rfl
    rw [List.flatMap_cons, List.append_assoc, harrow, ih, Option.map_map]
    rfl

/-- What the text of a graph tells, in the words of its view. -/
theorem read_dot_view (g : Graph) : read g.dot = some
    ⟨g.view.nodes.map fun a => (a.name, a.shape), g.edges.eraseDups.map fun e => (e.source, e.target)⟩ := by
  have hnodes := statements_nodes g.view.nodes
    (g.edges.eraseDups.flatMap (fun e => arrowTokens e.source e.target) ++ [.sign '\x7d'])
  have harrows := statements_arrows g.edges.eraseDups [.sign '\x7d']
  have hend : statements [.sign '\x7d'] = some {} := rfl
  have hhead (rest : List Token) (h : tokens g.dot.toList = some (headTokens ++ rest)) :
      read g.dot = statements rest := by
    rw [read, h]
    rfl
  rw [hhead _ (Graph.finds_dot g).tokens_eq, hnodes, harrows, hend]
  simp

/-- Boxes are files, and ellipses are modules. -/
theorem ofShape_view (g : Graph) (arrows : List (String × String)) :
    ofShape ⟨g.view.nodes.map fun a => (a.name, a.shape), arrows⟩ "box" =
        g.view.nodes.filterMap Graph.fileName? ∧
      ofShape ⟨g.view.nodes.map fun a => (a.name, a.shape), arrows⟩ "ellipse" =
        g.view.nodes.filterMap Graph.moduleName? := by
  unfold ofShape
  dsimp only
  induction g.view.nodes with
  | nil => exact ⟨rfl, rfl⟩
  | cons a nodes ih =>
    obtain ⟨hfiles, hmodules⟩ := ih
    cases a with
    | file name => exact ⟨congrArg (name :: ·) hfiles, hmodules⟩
    | module name => exact ⟨hfiles, congrArg (name :: ·) hmodules⟩

/-- A drawing tells the edges of a graph: each node once with its shape, each edge once as an arrow, and all in
the order in which they first occur, the source of an edge before its target. -/
structure Tells (d : Drawing) (g : Graph) : Prop where
  shapes : d.shapes = (g.edges.flatMap Edge.ends).eraseDups.map fun a => (a.name, a.shape)
  arrows : d.arrows = g.edges.eraseDups.map fun e => (e.source, e.target)
  boxes : d.ofShape "box" = (g.edges.map Edge.source).eraseDups
  ellipses : d.ofShape "ellipse" = (g.edges.map Edge.target).eraseDups

theorem tells_read (g : Graph) : ∃ d, read g.dot = some d ∧ d.Tells g := by
  obtain ⟨hfiles, hmodules⟩ := ofShape_view g (g.edges.eraseDups.map fun e => (e.source, e.target))
  refine ⟨_, read_dot_view g, ?_, rfl, hfiles.trans g.files_view, hmodules.trans g.modules_view⟩
  rw [g.shows_view.nodes]

theorem Tells.edges_eq {d : Drawing} {g h : Graph} (hg : d.Tells g) (hh : d.Tells h) :
    g.edges.eraseDups = h.edges.eraseDups := by
  have harrows := hg.arrows.symm.trans hh.arrows
  refine (List.map_inj_right fun e e' hends => ?_).mp harrows
  cases e
  cases e'
  simpa using hends

/-- The text of a graph is read as its drawing, whatever signs its names hold. Two graphs have the same text
exactly if they have the same edges when repetitions are left out. -/
theorem read_dot (g : Graph) :
    (∃ d, read g.dot = some d ∧ d.Tells g) ∧
      ∀ h : Graph, g.dot = h.dot ↔ g.edges.eraseDups = h.edges.eraseDups := by
  refine ⟨tells_read g, fun h => ⟨fun htext => ?_, fun hedges => ?_⟩⟩
  · obtain ⟨d, hread, hg⟩ := tells_read g
    obtain ⟨d', hread', hh⟩ := tells_read h
    rw [htext, hread'] at hread
    obtain rfl := Option.some.inj hread
    exact hg.edges_eq hh
  · have hview : g.view = h.view := by
      rw [← Graph.view_eraseDups g.edges, hedges, Graph.view_eraseDups]
    unfold Graph.dot
    rw [hview]

end Drawing

end RepoSurvey
