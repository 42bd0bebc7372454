import Groundwork.Proofs.Graph.Drawings
import Mathlib.Algebra.Group.Nat.Even
import Mathlib.Data.List.DropRight

/-!
Reading a drawing from the left. Within a quoted text a backslash before a quote stands for the quote,
two backslashes are a pair that leaves the next character alone, and any other character stands for
itself. A text comes back as it was written exactly if before each of its quotes, and at its end, the
number of backslashes is even. Where it is odd, the text ends too early or takes in what follows.
-/

namespace Groundwork.Graph

structure Quotation where
  chars : List Char
  after : List Char

/-- The nodes and edges that quotations stand for. An edge has an arrow between its ends, a node its
label behind its id. -/
def statements : List Quotation → Selection
  | first :: second :: rest =>
    let later := statements rest
    if first.after = " -> ".toList then
      { later with
        edges := ⟨String.ofList first.chars, String.ofList second.chars⟩ :: later.edges }
    else { later with ids := String.ofList first.chars :: later.ids }
  | _ => ⟨[], []⟩

/-- Where a reader stands: between texts, in one, or in one behind a backslash that may escape. -/
inductive Place where
  | between
  | within
  | escaping

/-- What lies ahead of a place: the characters up to the next end of a text or of a gap between texts, the
gap behind the text that the place is in, and the quotations after that. -/
@[ext]
structure Ahead where
  chars : List Char
  after : List Char
  behind : List Quotation

namespace Ahead

def push (chars : List Char) (a : Ahead) : Ahead := { a with chars := chars ++ a.chars }

def line (first joint second ending : String) (a : Ahead) : Ahead :=
  ⟨"\n  ".toList, [], ⟨first.toList, joint.toList⟩ :: ⟨second.toList, ending.toList ++ a.chars⟩ ::
    a.behind⟩

end Ahead

def ahead : Place → List Char → Ahead
  | .escaping, [] => ⟨['\\'], [], []⟩
  | _, [] => ⟨[], [], []⟩
  | .between, c :: rest =>
    if c = '"' then
      let text := ahead .within rest
      ⟨[], [], ⟨text.chars, text.after⟩ :: text.behind⟩
    else (ahead .between rest).push [c]
  | .within, c :: rest =>
    if c = '"' then
      let gap := ahead .between rest
      ⟨[], gap.chars, gap.behind⟩
    else if c = '\\' then ahead .escaping rest
    else (ahead .within rest).push [c]
  | .escaping, c :: rest => (ahead .within rest).push (if c = '"' then [c] else ['\\', c])

def quotations (drawing : String) : List Quotation := (ahead .between drawing.toList).behind

/-! ### Backslashes before a place -/

def slashes (before : List Char) : Nat := (before.rtakeWhile (· == '\\')).length

theorem slashes_slash (before : List Char) : slashes (before ++ ['\\']) = slashes before + 1 := by
  rw [slashes, List.rtakeWhile_concat_pos _ _ _ (by decide), List.length_append]
  rfl

theorem slashes_other (before : List Char) {c : Char} (other : c ≠ '\\') :
    slashes (before ++ [c]) = 0 := by
  rw [slashes, List.rtakeWhile_concat_neg _ _ _ (by simpa using other)]
  rfl

def SettledAfter (read text : List Char) : Prop :=
  ∀ before after, before ++ after = text → (after = [] ∨ after.head? = some '"') →
    Even (slashes (read ++ before))

/-- The number of backslashes is even before each quote of the text and at its end. -/
def Settled (text : List Char) : Prop := SettledAfter [] text

theorem settledAfter_nil (read : List Char) : SettledAfter read [] ↔ Even (slashes read) := by
  constructor
  · intro settled
    simpa using settled [] [] rfl (Or.inl rfl)
  · intro even before after whole _
    obtain ⟨rfl, rfl⟩ := List.append_eq_nil_iff.mp whole
    simpa using even

theorem settledAfter_cons (read : List Char) (c : Char) (text : List Char) :
    SettledAfter read (c :: text) ↔
      (c = '"' → Even (slashes read)) ∧ SettledAfter (read ++ [c]) text := by
  constructor
  · intro settled
    refine ⟨fun quote => ?_, fun before after whole ends => ?_⟩
    · simpa using settled [] (c :: text) rfl (Or.inr (by rw [quote]; rfl))
    · simpa using settled (c :: before) after (by rw [List.cons_append, whole]) ends
  · intro ⟨first, later⟩ before after whole ends
    cases before with
    | nil =>
        rw [List.nil_append] at whole
        subst whole
        rcases ends with none | quote
        · cases none
        · simpa using first (Option.some.inj quote)
    | cons d before =>
        obtain ⟨rfl, rest⟩ := List.cons.inj whole
        simpa using later before after rest ends

/-! ### One text -/

def escaped (text : List Char) : List Char :=
  text.flatMap fun c => if c = '"' then "\\\"".toList else [c]

theorem escaped_cons (c : Char) (text : List Char) :
    escaped (c :: text) = (if c = '"' then ['\\', '"'] else [c]) ++ escaped text := by
  rw [escaped, List.flatMap_cons]
  rfl

theorem quote_toList (s : String) : (quote s).toList = '"' :: (escaped s.toList ++ ['"']) := by
  simp [quote, Text.substitute, escaped]

/-- The place in a text behind characters that were read: the last of an odd number of backslashes may
escape what follows. -/
def placeAfter (read : List Char) : Place := if Even (slashes read) then .within else .escaping

def heldBack (read : List Char) : List Char := if Even (slashes read) then [] else ['\\']

theorem ahead_escaped_cons (read : List Char) (c : Char) (rest : List Char)
    (settled : c = '"' → Even (slashes read)) :
    ∃ front, heldBack read ++ [c] = front ++ heldBack (read ++ [c]) ∧
      ahead (placeAfter read) ((if c = '"' then ['\\', '"'] else [c]) ++ rest) =
        (ahead (placeAfter (read ++ [c])) rest).push front := by
  by_cases quote : c = '"'
  · subst quote
    have even := settled rfl
    have next := slashes_other read (c := '"') (by decide)
    exact ⟨['"'], by simp [heldBack, even, next], by simp [placeAfter, even, next, ahead, Ahead.push]⟩
  · rw [if_neg quote, List.singleton_append]
    by_cases slash : c = '\\'
    · subst slash
      have next := slashes_slash read
      by_cases even : Even (slashes read)
      · exact ⟨[], by simp [heldBack, even, next, Nat.even_add_one],
          by simp [placeAfter, even, next, Nat.even_add_one, ahead, Ahead.push]⟩
      · exact ⟨['\\', '\\'], by simp [heldBack, even, next, Nat.even_add_one],
          by simp [placeAfter, even, next, Nat.even_add_one, ahead, Ahead.push]⟩
    · have next := slashes_other read slash
      by_cases even : Even (slashes read)
      · exact ⟨[c], by simp [heldBack, even, next],
          by simp [placeAfter, even, next, ahead, Ahead.push, quote, slash]⟩
      · exact ⟨['\\', c], by simp [heldBack, even, next],
          by simp [placeAfter, even, next, ahead, Ahead.push, quote]⟩

theorem push_push (first second : List Char) (a : Ahead) :
    (a.push second).push first = a.push (first ++ second) := by
  simp [Ahead.push]

theorem ahead_escaped {read text : List Char} (settled : SettledAfter read text) (rest : List Char) :
    ahead (placeAfter read) (escaped text ++ '"' :: rest) =
      ⟨heldBack read ++ text, (ahead .between rest).chars, (ahead .between rest).behind⟩ := by
  induction text generalizing read with
  | nil =>
      rw [settledAfter_nil] at settled
      simp [placeAfter, heldBack, settled, escaped, ahead]
  | cons c text ih =>
      obtain ⟨first, later⟩ := (settledAfter_cons read c text).mp settled
      obtain ⟨front, whole, stepped⟩ := ahead_escaped_cons read c (escaped text ++ '"' :: rest) first
      rw [escaped_cons, List.append_assoc, stepped, ih later, Ahead.push, ← List.append_assoc, ← whole,
        List.append_assoc]
      rfl

theorem settled_of_ahead {read text : List Char} {rest : List Char}
    (back : (ahead (placeAfter read) (escaped text ++ '"' :: rest)).chars = heldBack read ++ text) :
    SettledAfter read text := by
  induction text generalizing read with
  | nil =>
      rw [settledAfter_nil]
      by_contra odd
      simp [placeAfter, heldBack, odd, escaped, ahead, Ahead.push] at back
  | cons c text ih =>
      rw [settledAfter_cons]
      have first : c = '"' → Even (slashes read) := by
        rintro rfl
        by_contra odd
        simp [placeAfter, heldBack, odd, escaped_cons, ahead, Ahead.push] at back
      obtain ⟨front, whole, stepped⟩ := ahead_escaped_cons read c (escaped text ++ '"' :: rest) first
      refine ⟨first, ih ?_⟩
      have held : heldBack read ++ c :: text = front ++ (heldBack (read ++ [c]) ++ text) := by
        rw [← List.append_assoc, ← whole, List.append_assoc, List.singleton_append]
      rw [escaped_cons, List.append_assoc, stepped, held] at back
      exact List.append_cancel_left back

theorem ahead_quote (s : String) (rest : List Char) :
    (Settled s.toList → ahead .between ((quote s).toList ++ rest) =
      ⟨[], [], ⟨s.toList, (ahead .between rest).chars⟩ :: (ahead .between rest).behind⟩) ∧
    ((ahead .between ((quote s).toList ++ rest)).behind.head?.map (·.chars) = some s.toList →
      Settled s.toList) := by
  have opened : ahead .between ((quote s).toList ++ rest) =
      let text := ahead (placeAfter []) (escaped s.toList ++ '"' :: rest)
      ⟨[], [], ⟨text.chars, text.after⟩ :: text.behind⟩ := by
    rw [quote_toList, List.cons_append, List.append_assoc, ahead, if_pos rfl]
    rfl
  rw [opened]
  constructor
  · intro settled
    rw [ahead_escaped settled]
    rfl
  · intro back
    exact settled_of_ahead (Option.some.inj back)

/-! ### A whole drawing -/

theorem ahead_plain {text : List Char} (plain : '"' ∉ text) (rest : List Char) :
    ahead .between (text ++ rest) = (ahead .between rest).push text := by
  induction text with
  | nil => rfl
  | cons c text ih =>
      obtain ⟨other, later⟩ := List.ne_and_not_mem_of_not_mem_cons plain
      rw [List.cons_append, ahead, if_neg other.symm, ih later, push_push]
      rfl

theorem ahead_after (drawing : List Char) : (ahead .between drawing).after = [] := by
  induction drawing with
  | nil => rfl
  | cons c drawing ih =>
      rw [ahead]
      split
      · rfl
      · exact ih

namespace Ahead

def text (a : Ahead) : List Char :=
  a.chars ++ a.behind.flatMap fun q => (quote (.ofList q.chars)).toList ++ q.after

theorem text_push (front : List Char) (a : Ahead) : (a.push front).text = front ++ a.text := by
  simp [push, text]

structure Plain (a : Ahead) : Prop where
  chars : '"' ∉ a.chars
  after : a.after = []
  behind : ∀ q ∈ a.behind, '"' ∉ q.after

theorem Plain.read_iff {a : Ahead} (plain : a.Plain) :
    ahead .between a.text = a ↔ ∀ q ∈ a.behind, Settled q.chars := by
  obtain ⟨chars, after, behind⟩ := a
  obtain ⟨plainChars, rfl, plainBehind⟩ := plain
  dsimp only at plainChars plainBehind
  induction behind generalizing chars with
  | nil => simpa [text, push, ahead] using ahead_plain plainChars []
  | cons q behind ih =>
      obtain ⟨plainAfter, plainLater⟩ := List.forall_mem_cons.mp plainBehind
      have later := ih q.after plainAfter plainLater
      have written : text ⟨chars, [], q :: behind⟩ =
          chars ++ ((quote (.ofList q.chars)).toList ++ text ⟨q.after, [], behind⟩) := by
        simp [text]
      obtain ⟨forward, back⟩ := ahead_quote (.ofList q.chars) (text ⟨q.after, [], behind⟩)
      rw [String.toList_ofList] at forward back
      rw [written, ahead_plain plainChars, List.forall_mem_cons, ← later]
      constructor
      · intro read
        have settled := back (by simpa [push] using congrArg (·.behind.head?.map (·.chars)) read)
        refine ⟨settled, ?_⟩
        rw [forward settled] at read
        obtain ⟨-, -, found⟩ := Ahead.mk.inj read
        obtain ⟨first, rest⟩ := List.cons.inj found
        exact Ahead.ext (Quotation.mk.inj first).2 (ahead_after _) rest
      · intro ⟨settled, read⟩
        rw [forward settled, read]
        simp [push]

def edge (e : Edge) : Ahead → Ahead := line e.source " -> " e.target ";"

def node (g : DependencyGraph) (n : Node) : Ahead → Ahead :=
  line n.id " [label=" (n.label ++ "\\n" ++ n.kind.name) (nodeEnding g n)

structure Writes (a : Ahead) (drawing : List Char) (shown : Selection) : Prop where
  plain : a.Plain
  text : a.text = drawing
  shown : statements a.behind = shown

variable {a : Ahead} {drawing : List Char} {shown : Selection}

theorem Plain.line (plain : a.Plain) (first second : String) {joint ending : String}
    (plainJoint : '"' ∉ joint.toList) (plainEnding : '"' ∉ ending.toList) :
    (a.line first joint second ending).Plain := by
  refine ⟨by simp [Ahead.line], rfl, ?_⟩
  simpa [Ahead.line, plainJoint, plainEnding, plain.chars] using plain.behind

theorem text_line (a : Ahead) (first joint second ending : String) :
    (a.line first joint second ending).text =
      '\n' :: ("  " ++ quote first ++ (joint ++ quote second) ++ ending).toList ++ a.text := by
  simp [line, text]

theorem Writes.edge (writes : a.Writes drawing shown) (e : Edge) :
    (a.edge e).Writes ('\n' :: (edgeLine e).toList ++ drawing)
      { shown with edges := e :: shown.edges } where
  plain := writes.plain.line e.source e.target (by decide) (by decide)
  text := by
    rw [Ahead.edge, text_line, writes.text, edgeLine]
    simp only [String.append_assoc]
  shown := by simp [Ahead.edge, line, statements, writes.shown]

theorem Writes.node (writes : a.Writes drawing shown) (g : DependencyGraph) (n : Node) :
    (a.node g n).Writes ('\n' :: (nodeLine g n).toList ++ drawing)
      { shown with ids := n.id :: shown.ids } where
  plain := writes.plain.line n.id _ (by decide) (nodeEnding_plain g n)
  text := by rw [Ahead.node, text_line, writes.text, nodeLine_eq]
  shown := by simp [Ahead.node, line, statements, writes.shown]

theorem Writes.edges (writes : a.Writes drawing shown) (edges : List Edge) :
    (edges.foldr Ahead.edge a).Writes
      ((edges.flatMap fun e => '\n' :: (edgeLine e).toList) ++ drawing)
      { shown with edges := edges ++ shown.edges } := by
  induction edges with
  | nil => exact writes
  | cons e edges ih => simpa using ih.edge e

theorem Writes.nodes (writes : a.Writes drawing shown) (g : DependencyGraph) (nodes : List Node) :
    (nodes.foldr (Ahead.node g) a).Writes
      ((nodes.flatMap fun n => '\n' :: (nodeLine g n).toList) ++ drawing)
      { shown with ids := nodes.map (·.id) ++ shown.ids } := by
  induction nodes with
  | nil => exact writes
  | cons n nodes ih => simpa using ih.node g n

end Ahead

/-- A drawing as it was written: what stands before its first text, and its quotations. -/
def written (g : DependencyGraph) (focus : String) : Ahead :=
  ((drawnNodes g focus).foldr (Ahead.node g) <|
    (select g focus).edges.foldr Ahead.edge ⟨"\n\x7d".toList, [], []⟩).push
      "digraph Dependencies \x7b\n  rankdir=LR;".toList

theorem toList_joinLines (first : String) (others : List String) :
    (Text.join "\n" (first :: others)).toList =
      first.toList ++ others.flatMap fun line => '\n' :: line.toList := by
  induction others generalizing first with
  | nil => simp [Text.join]
  | cons second others ih =>
      rw [Text.join, String.intercalate_cons_cons, ← Text.join, String.toList_append, ih]
      simp

theorem written_writes (g : DependencyGraph) (focus : String) :
    (written g focus).Writes (toDot g focus).toList (select g focus) := by
  have closing : Ahead.Writes ⟨"\n\x7d".toList, [], []⟩ "\n\x7d".toList ⟨[], []⟩ :=
    ⟨⟨by decide, rfl, List.forall_mem_nil _⟩, rfl, rfl⟩
  have lines := (closing.edges (select g focus).edges).nodes g (drawnNodes g focus)
  rw [drawnNodes_ids, List.append_nil, List.append_nil] at lines
  have plain : '"' ∉ "digraph Dependencies \x7b\n  rankdir=LR;".toList := by decide
  refine ⟨⟨?_, lines.plain.after, lines.plain.behind⟩, ?_, lines.shown⟩
  · rw [written, Ahead.push, List.mem_append]
    exact not_or.mpr ⟨plain, lines.plain.chars⟩
  · have heading : "digraph Dependencies \x7b\n  rankdir=LR;".toList =
        "digraph Dependencies \x7b".toList ++ '\n' :: "  rankdir=LR;".toList := by decide
    have ending : "\n\x7d".toList = '\n' :: "\x7d".toList := by decide
    rw [written, Ahead.text_push, lines.text, toDot, heading, ending]
    simp only [List.cons_append, List.nil_append, toList_joinLines, List.flatMap_cons,
      List.flatMap_append, List.flatMap_map, List.flatMap_nil, List.append_assoc]
    rfl

structure AllSettled (g : DependencyGraph) (focus : String) : Prop where
  ids : ∀ n ∈ drawnNodes g focus, Settled n.id.toList
  labels : ∀ n ∈ drawnNodes g focus, Settled (n.label ++ "\\n" ++ n.kind.name).toList
  sources : ∀ e ∈ (select g focus).edges, Settled e.source.toList
  targets : ∀ e ∈ (select g focus).edges, Settled e.target.toList

theorem allSettled_iff (g : DependencyGraph) (focus : String) :
    AllSettled g focus ↔ ∀ q ∈ (written g focus).behind, Settled q.chars := by
  have edges (es : List Edge) (a : Ahead) :
      (∀ q ∈ (es.foldr Ahead.edge a).behind, Settled q.chars) ↔
        (∀ e ∈ es, Settled e.source.toList ∧ Settled e.target.toList) ∧
          ∀ q ∈ a.behind, Settled q.chars := by
    induction es with
    | nil => simp
    | cons e es ih => simp [Ahead.edge, Ahead.line, ih, and_assoc]
  have nodes (ns : List Node) (a : Ahead) :
      (∀ q ∈ (ns.foldr (Ahead.node g) a).behind, Settled q.chars) ↔
        (∀ n ∈ ns, Settled n.id.toList ∧ Settled (n.label ++ "\\n" ++ n.kind.name).toList) ∧
          ∀ q ∈ a.behind, Settled q.chars := by
    induction ns with
    | nil => simp
    | cons n ns ih =>
        rw [List.foldr_cons, Ahead.node, Ahead.line, List.forall_mem_cons, List.forall_mem_cons, ih,
          List.forall_mem_cons, and_assoc, and_assoc]
  rw [written, Ahead.push, nodes, edges]
  constructor
  · intro ⟨ids, labels, sources, targets⟩
    exact ⟨fun n member => ⟨ids n member, labels n member⟩,
      fun e member => ⟨sources e member, targets e member⟩, List.forall_mem_nil _⟩
  · intro ⟨shown, drawn, _⟩
    exact ⟨fun n member => (shown n member).1, fun n member => (shown n member).2,
      fun e member => (drawn e member).1, fun e member => (drawn e member).2⟩

/-- A drawing holds its texts in quotes, each of them escaped, and has no other quotes. Read from the left,
each text ends at the quote that was written for it, and comes back, exactly if all texts are settled; then
the ids of the nodes and the ends of the edges come back with them. -/
theorem toDot_read (g : DependencyGraph) (focus : String) :
    (written g focus).text = (toDot g focus).toList ∧ (written g focus).Plain ∧
    statements (written g focus).behind = select g focus ∧
    (ahead .between (toDot g focus).toList = written g focus ↔ AllSettled g focus) ∧
    (AllSettled g focus → statements (quotations (toDot g focus)) = select g focus) := by
  have writes := written_writes g focus
  have read : ahead .between (toDot g focus).toList = written g focus ↔ AllSettled g focus := by
    rw [allSettled_iff, ← writes.plain.read_iff, writes.text]
  refine ⟨writes.text, writes.plain, writes.shown, read, fun settled => ?_⟩
  rw [quotations, read.mpr settled, writes.shown]

def slashedQuote : DependencyGraph :=
  .ofRecords [{ path := "src/a\\\".ts", language := "typescript" }]

/-- The backslash before the quote is read as the first of a pair, so that the id ends at its own quote. -/
theorem slashedQuote_cut :
    (select slashedQuote "").ids = ["src/a\\\".ts"] ∧
      (statements (quotations (toDot slashedQuote ""))).ids = ["src/a\\\\"] := by
  decide +kernel

end Groundwork.Graph
