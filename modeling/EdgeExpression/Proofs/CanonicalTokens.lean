import EdgeExpression.Proofs.MixedCalls
import EdgeExpression.Proofs.RoundTrip
import EdgeExpression.Proofs.Viable

/-!
# The tokens of canonical text

The canonical text of an expression is written piece by piece, and no piece looks at its
neighbours. Yet it has no other tokens than its pieces: none of them runs into the next one and
none is cut in two, at any depth. So its tokens can be told from the expression alone.

The listing of an expression's tokens is given here by its constructors, without regard to any
text. Of blanks only those behind the colons of entries are tokens. That each of these is one
space follows from what stands behind a colon: the value of an entry, which begins with an operand
and never with an operator that would bring a space of its own.
-/
namespace EdgeExpression

/-! ## The listing of an expression -/

namespace Expr

/-- A listing in parentheses, if it is to be grouped. -/
def groupedListing (group : Bool) (listing : List (String × String)) : List (String × String) :=
  if group then ("(", "(") :: listing ++ [(")", ")")] else listing

mutual

/-- The kinds and the cargo of the tokens of an expression, without the end. -/
def listing : Expr → List (String × String)
  | .text value => [("Literal", value)]
  | .number value => [("Number", Decimal.ofInt64 value)]
  | .variable name => [("Identifier", name)]
  | .member owner (.name key) =>
      [("MemberExpression", owner), ("Literal", key), ("\x7d", "\x7d"), (")", ")")]
  | .member owner (.index value) =>
      [("MemberExpression", owner), ("Number", Decimal.ofInt64 value), ("\x7d", "\x7d"),
        (")", ")")]
  | .call callee arguments =>
      ("CallExpression", callee) :: [(",", ",")].intercalate (listingEach arguments) ++
        [(")", ")")]
  | .array elements =>
      ("ArrayExpression", "[") :: [(",", ",")].intercalate (listingEach elements) ++ [("]", "]")]
  | .object entries =>
      ("ObjectExpression", "\x7b") :: [(",", ",")].intercalate (entryListing entries) ++
        [("\x7d", "\x7d")]
  | .not operand => ("UnaryOperator", "!") :: groupedListing operand.isInfix operand.listing
  | .comparison left operator right =>
      groupedListing left.isInfix left.listing ++
        ("BinaryOperator", operator.symbol) :: groupedListing right.isInfix right.listing
  | .logical left operator right =>
      groupedListing left.isLogical left.listing ++
        ("LogicalOperator", operator.symbol) :: right.listing
termination_by structural e => e

/-- The listing of each expression of a list. -/
def listingEach : List Expr → List (List (String × String))
  | [] => []
  | e :: rest => e.listing :: listingEach rest
termination_by structural list => list

/-- The listing of each entry of an object: its key, a colon, a space and its value. -/
def entryListing : List (String × Expr) → List (List (String × String))
  | [] => []
  | (key, e) :: rest =>
      (("Literal", key) :: (":", ":") :: ("Space", " ") :: e.listing) :: entryListing rest
termination_by structural list => list

end

/-- The listings of the parts of a list are those of each part. -/
theorem listingEach_eq_map (list : List Expr) : listingEach list = list.map listing := by
  induction list with
  | nil => rfl
  | cons e rest induction => rw [listingEach, induction, List.map_cons]

/-- The listing of an entry is its key, a colon, a space and the listing of its value. -/
theorem entryListing_eq_map (entries : List (String × Expr)) :
    entryListing entries = entries.map fun entry =>
      ("Literal", entry.1) :: (":", ":") :: ("Space", " ") :: entry.2.listing := by
  induction entries with
  | nil => rfl
  | cons entry rest induction => rw [entryListing, induction, List.map_cons]

end Expr

/-- The tokens that a lexeme leads to in spaced text: itself, and a space behind a colon. -/
def Lexeme.shown : Lexeme → List Content
  | .colon => [.lexeme .colon, .space " "]
  | lexeme => [.lexeme lexeme]

/-- The listing that a lexeme leads to in spaced text. -/
def Lexeme.labels (lexeme : Lexeme) : List (String × String) := lexeme.shown.map Content.label

/-- The labels of parts with commas between them are those of the parts, with those of the commas
between them. -/
theorem labels_separated (parts : List (List Lexeme)) :
    (separated parts).flatMap Lexeme.labels =
      [(",", ",")].intercalate (parts.map (List.flatMap Lexeme.labels)) :=
  flatMap_intercalate _ _ _

/-- The commas of a list lead to those of its listing. -/
theorem labels_each {list : List Expr}
    (own : ∀ e ∈ list, e.lexemes.flatMap Lexeme.labels = e.listing) :
    (separated (list.map Expr.lexemes)).flatMap Lexeme.labels =
      [(",", ",")].intercalate (Expr.listingEach list) := by
  rw [labels_separated, List.map_map, Expr.listingEach_eq_map]
  exact congrArg _ (List.map_congr_left own)

/-- The labels of a group are those of what is in it, between those of the parentheses. -/
theorem labels_grouped (group : Bool) (ls : List Lexeme) :
    (Expr.grouped group ls).flatMap Lexeme.labels =
      Expr.groupedListing group (ls.flatMap Lexeme.labels) := by
  cases group with
  | false => rfl
  | true =>
      rw [Expr.grouped, Expr.groupedListing, if_pos rfl, if_pos rfl, List.cons_append,
        List.flatMap_cons, List.flatMap_append]
      rfl

/-- The listing of an expression is what its canonical lexemes lead to. -/
theorem labels_lexemes (e : Expr) : e.lexemes.flatMap Lexeme.labels = e.listing := by
  induction e using Expr.parts_induction with
  | text value => rfl
  | number value => rfl
  | variableName name => rfl
  | member owner key => cases key <;> rfl
  | call callee arguments induction =>
      rw [Expr.lexemes_call, List.cons_append, List.flatMap_cons, List.flatMap_append,
        labels_each induction, Expr.listing]
      rfl
  | array elements induction =>
      rw [Expr.lexemes_array, List.cons_append, List.flatMap_cons, List.flatMap_append,
        labels_each induction, Expr.listing]
      rfl
  | object entries induction =>
      have each : (entries.map fun entry => .literal entry.1 :: .colon :: entry.2.lexemes).map
          (List.flatMap Lexeme.labels) = entries.map fun entry =>
            ("Literal", entry.1) :: (":", ":") :: ("Space", " ") :: entry.2.listing := by
        rw [List.map_map]
        refine List.map_congr_left fun entry member => ?_
        rw [← induction entry member]
        rfl
      rw [Expr.lexemes_object, List.cons_append, List.flatMap_cons, List.flatMap_append,
        labels_separated, each, Expr.listing, Expr.entryListing_eq_map]
      rfl
  | not operand induction =>
      rw [Expr.lexemes, List.flatMap_cons, labels_grouped, induction, Expr.listing]
      rfl
  | comparison left operator right leftLabels rightLabels =>
      rw [Expr.lexemes, List.flatMap_append, List.flatMap_cons, labels_grouped, labels_grouped,
        leftLabels, rightLabels, Expr.listing]
      rfl
  | logical left operator right leftLabels rightLabels =>
      rw [Expr.lexemes, List.flatMap_append, List.flatMap_cons, labels_grouped, leftLabels,
        rightLabels, Expr.listing]
      rfl

/-! ## Behind a colon -/

namespace Progress

variable {limit : Nat} {progress following : Progress}

/-- Behind a colon an operand is due, and no operator begins one. -/
theorem spaceBefore_behind_colon {between : Progress} {lexeme : Lexeme}
    (taken : progress.step limit .colon = .next between)
    (behind : between.step limit lexeme = .next following) : lexeme.spaceBefore = [] := by
  cases progress with
  | colon done key frames =>
      obtain rfl := Verdict.next.inj taken
      cases lexeme with
      | comparison | connective => cases behind
      | _ => rfl
  | operand => cases taken
  | after e frames => simp [step, endOperand, endPart] at taken
  | entry | memberKey | memberBrace | memberParen => simp [step] at taken

end Progress

/-- In the canonical lexemes of an expression, nothing brings a space behind a colon. -/
theorem Expr.isChain_behind_colon (e : Expr) :
    e.lexemes.IsChain fun lexeme next => lexeme = .colon → next.spaceBefore = [] := by
  refine (derives_lexemes e).isChain_of_steps fun taken behind isColon => ?_
  rw [isColon] at taken
  exact Progress.spaceBefore_behind_colon taken behind

/-- Spaced text begins with a lexeme if that brings no space in front of it. -/
theorem isBlank_first_of_spaced {ls : List Lexeme} (legible : ∀ lexeme ∈ ls, lexeme.Legible)
    (bare : ∀ lexeme ∈ ls.head?, lexeme.spaceBefore = []) :
    ∀ c ∈ (ls.flatMap Lexeme.spaced).head?, isBlank c = false := by
  intro c first
  cases ls with
  | nil => cases first
  | cons lexeme rest =>
      have own : lexeme.Legible := legible lexeme List.mem_cons_self
      obtain ⟨lead, tail, split⟩ := List.exists_cons_of_ne_nil own.spelling_ne_nil
      have found := scan_spelling lexeme [] own (by simp)
      rw [split, List.cons_append] at found
      rw [List.flatMap_cons, Lexeme.spaced_eq, bare lexeme rfl, split] at first
      obtain rfl : lead = c := Option.some.inj first
      exact isBlank_of_scan found

/-! ## The tokens of spaced text -/

namespace TokenStream

variable {stream after : TokenStream} {token : Token} {contents : List Content}
  {text rest : List Char}

/-- A stream goes on with a text, either directly behind a colon or not. -/
structure IsBefore (stream : TokenStream) (colon : Bool) (text : List Char) : Prop where
  running : stream.ended = false
  afterColon : stream.afterColon = colon
  rest : stream.cursor.rest = text

/-- A stream hands out tokens with these contents, and no error. -/
def HandsOut (stream : TokenStream) (contents : List Content) : Prop :=
  ∃ tokens : List Token, stream.remaining = tokens.map .ok ∧
    tokens.map Token.content = contents

/-- A token more: it is pulled, and then the stream goes on. -/
theorem HandsOut.cons (running : stream.ended = false) (pulled : stream.pull = (.ok token, after))
    (more : token.content ≠ .ending) (later : after.HandsOut contents) :
    stream.HandsOut (token.content :: contents) := by
  have goesOn : { after with ended := isFinal (.ok token) } = after := by
    have still : after.ended = false := (pull_passes pulled).2.2.2.trans running
    rw [isFinal, beq_eq_false_iff_ne.mpr more, ← still]
  obtain ⟨tokens, handed, same⟩ := later
  refine ⟨token :: tokens, ?_, by rw [List.map_cons, same]⟩
  rw [remaining_of_running running, pulled, goesOn, handed]
  rfl

/-- Blanks are no token unless they stand directly behind a colon. -/
theorem IsBefore.pull_eq (before : stream.IsBefore false text) :
    stream.pull = stream.pullBehindBlanks := by
  rw [pull, spaceRun, before.afterColon]
  rfl

/-- Where only blanks are left, the end is handed out. -/
theorem IsBefore.handsOut_ending (before : stream.IsBefore false text)
    (blank : ∀ c ∈ text, isBlank c = true) : stream.HandsOut [.ending] := by
  obtain ⟨token, after, pulled, ending⟩ :
      ∃ token after, stream.pull = (.ok token, after) ∧ token.content = .ending := by
    rw [before.pull_eq, pullBehindBlanks, Cursor.look_of_blanks (before.rest ▸ blank)]
    exact ⟨_, _, rfl, rfl⟩
  have final : isFinal (.ok token) = true := by simp [isFinal, ending]
  refine ⟨[token], ?_, by rw [List.map_singleton, ending]⟩
  rw [remaining_of_running before.running, pulled, remaining_of_ended _ final]
  rfl

/-- Where a lexeme is scanned behind blanks, it is handed out before what follows. -/
theorem IsBefore.handsOut_lexeme {lexeme : Lexeme} {blanks own : List Char}
    (before : stream.IsBefore false (blanks ++ (own ++ rest)))
    (blank : ∀ c ∈ blanks, isBlank c = true) (found : scan (own ++ rest) = .found lexeme own)
    (later : ∀ after : TokenStream, after.IsBefore (lexeme == .colon) rest →
      after.HandsOut contents) :
    stream.HandsOut (.lexeme lexeme :: contents) := by
  have seen : stream.cursor.look = .lexeme lexeme (stream.cursor.position.past blanks)
      ⟨(stream.cursor.position.past blanks).past own, rest⟩ :=
    Cursor.look_eq_lexeme_iff.mpr ⟨blanks, own, ⟨before.rest, blank, rfl⟩, rfl, found⟩
  have pulled := before.pull_eq
  rw [pullBehindBlanks, seen] at pulled
  refine .cons before.running pulled ?_ (later _ ⟨before.running, rfl, rfl⟩)
  intro ending
  cases ending

/-- Directly behind a colon, one space in front of anything else is handed out. -/
theorem IsBefore.handsOut_space (before : stream.IsBefore true (' ' :: rest))
    (visible : ∀ c ∈ rest.head?, isBlank c = false)
    (later : ∀ after : TokenStream, after.IsBefore false rest → after.HandsOut contents) :
    stream.HandsOut (.space " " :: contents) := by
  have space : ∀ c ∈ [' '], isBlank c = true := by simp [isBlank]
  have run : stream.cursor.rest.takeWhile isBlank = [' '] := by
    rw [before.rest]
    exact takeWhile_run space visible
  have behind : (stream.cursor.skip isBlank).rest = rest := by
    rw [Cursor.rest_skip, before.rest]
    exact dropWhile_run space visible
  rcases pull_cases stream with ⟨_, _, pulled⟩ | ⟨none, _⟩
  · rw [run] at pulled
    refine .cons before.running pulled ?_ (later _ ⟨before.running, rfl, behind⟩)
    intro ending
    cases ending
  · cases (none before.afterColon).symm.trans run

/-- A stream in front of spaced lexemes hands out these, a space behind every colon, and the end.
Proof: by induction on the lexemes. What is spaced behind a lexeme is skipped in front of the next
one, but for the space behind a colon, which is a token before that. -/
theorem IsBefore.handsOut_spaced {ls : List Lexeme} (legible : ∀ lexeme ∈ ls, lexeme.Legible)
    (apart : ls.IsChain Lexeme.Apart)
    (loose : ls.IsChain fun lexeme next => lexeme = .colon → next.spaceBefore = [])
    {blanks : List Char} (blank : ∀ c ∈ blanks, isBlank c = true)
    (before : stream.IsBefore false (blanks ++ ls.flatMap Lexeme.spaced)) :
    stream.HandsOut (ls.flatMap Lexeme.shown ++ [.ending]) := by
  induction ls generalizing stream blanks with
  | nil => exact before.handsOut_ending (by simpa using blank)
  | cons lexeme rest induction =>
      obtain ⟨own, others⟩ := List.forall_mem_cons.mp legible
      obtain ⟨neighbour, apartRest⟩ := List.isChain_cons.mp apart
      obtain ⟨bare, looseRest⟩ := List.isChain_cons.mp loose
      have blanksBefore : ∀ c ∈ blanks ++ lexeme.spaceBefore, isBlank c = true :=
        List.forall_mem_append.mpr ⟨blank, Lexeme.isBlank_of_mem_spaceBefore⟩
      have found := scan_spelling lexeme _ own (absorbs_behind neighbour others)
      rw [List.flatMap_cons, Lexeme.spaced_eq, List.append_assoc, List.append_assoc,
        ← List.append_assoc] at before
      rw [List.flatMap_cons, List.append_assoc]
      by_cases isColon : lexeme = .colon
      · subst isColon
        refine before.handsOut_lexeme blanksBefore found fun after behind => ?_
        have visible := isBlank_first_of_spaced others fun next head => bare next head rfl
        refine behind.handsOut_space visible fun later there => ?_
        exact induction others apartRest looseRest (List.forall_mem_nil _) there
      · have noColon : (lexeme == .colon) = false := beq_eq_false_iff_ne.mpr isColon
        have alone : lexeme.shown = [.lexeme lexeme] := by
          cases lexeme <;> first | rfl | exact absurd rfl isColon
        rw [alone]
        refine before.handsOut_lexeme blanksBefore found fun after behind => ?_
        rw [noColon] at behind
        exact induction others apartRest looseRest Lexeme.isBlank_of_mem_spaceBehind behind

end TokenStream
/-! ## The tokens of canonical text -/

/-- The canonical text of an expression has the tokens of its listing, and the end behind them. All
that is asked for is that the names in it are names and that no text in it goes on behind three
quotes; it may be nested as deep as it likes, also deeper than can be parsed. -/
theorem tokenize_render {e : Expr} (names : ∀ name ∈ e.names, IsName name)
    (texts : ∀ text ∈ e.texts, IsWritable text.toList) (mapped : Bool) :
    ∃ tokens, tokenize e.render mapped = .ok tokens ∧
      tokens.map (·.content.label) = e.listing ++ [("EOL", "")] := by
  have legible : ∀ lexeme ∈ e.lexemes, lexeme.Legible :=
    (forall_legible_iff e).mpr (e.forall_presentable_iff.mpr ⟨names, texts⟩)
  have before : (TokenStream.ofText e.render mapped).IsBefore false
      ([] ++ e.lexemes.flatMap Lexeme.spaced) :=
    ⟨rfl, rfl, String.toList_ofList⟩
  obtain ⟨tokens, handed, contents⟩ := before.handsOut_spaced legible (isChain_lexemes e)
    e.isChain_behind_colon (List.forall_mem_nil _)
  refine ⟨tokens, ?_, ?_⟩
  · rw [tokenize, handed, mapM_map_ok]
  · have labels := congrArg (List.map Content.label) contents
    rw [List.map_append, List.map_flatMap, List.map_map] at labels
    rw [← labels_lexemes]
    exact labels

/-- Texts with quotes at their edges and without anything, a negation in front of a group, and a
negative number in front of a closing bracket. -/
theorem tokenize_render_of_object :
    let e : Expr := .object [("", .not (.comparison (.text "'") .notEqual (.text ""))),
      ("a'''", .array [.call "f" [.logical (.variable "x") .and (.not (.number 0))], .number (-1)])]
    ∃ tokens, tokenize e.render false = .ok tokens ∧ tokens.map (·.content.label) =
      [("ObjectExpression", "\x7b"), ("Literal", ""), (":", ":"), ("Space", " "),
        ("UnaryOperator", "!"), ("(", "("), ("Literal", "'"), ("BinaryOperator", "!="),
        ("Literal", ""), (")", ")"), (",", ","), ("Literal", "a'''"), (":", ":"), ("Space", " "),
        ("ArrayExpression", "["), ("CallExpression", "f"), ("Identifier", "x"),
        ("LogicalOperator", "&"), ("UnaryOperator", "!"), ("Number", "0"), (")", ")"), (",", ","),
        ("Number", "-1"), ("]", "]"), ("\x7d", "\x7d"), ("EOL", "")] := by
  intro e
  have parsed : Expr.parse "\x7b'': !('''''''!=''),'''a'''''':[$f($(x)&!0),-1]\x7d" = .ok e := by
    decide +kernel
  obtain ⟨legible, _⟩ := (exists_parse_iff e).mp ⟨_, parsed⟩
  obtain ⟨names, texts⟩ := e.forall_presentable_iff.mp ((forall_legible_iff e).mp legible)
  exact tokenize_render names texts false

end EdgeExpression
