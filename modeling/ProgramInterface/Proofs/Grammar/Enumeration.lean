import ProgramInterface.Grammar.SourceFile
import ProgramInterface.Proofs.Grammar.Draft
import ProgramInterface.Proofs.Syntax.Preorder

/-!
# A source with one enumeration

A source that holds an enumeration without variants and nothing else is read whatever the length of
the name. Its tree shows the enumeration under that name and holds no integer literal
(`source_file_enumeration`), so its description grows with the source and with nothing else.
-/

namespace ProgramInterface

/-- The characters of an enumeration without variants whose name is a capital letter and what follows
it. -/
def enumerationChars (letters : List Char) : List Char :=
  'e' :: 'n' :: 'u' :: 'm' :: ' ' :: 'A' :: (letters ++ ['\x7b', '\x7d'])

/-- The source that these characters are. -/
def enumerationSource (letters : List Char) : String :=
  String.ofList (enumerationChars letters)

namespace Grammar

open Reader

variable {sub : SubReader} {letters : List Char} {bound : Nat}

/-! ## Drafts of the source

The bound of a draft is at least two, so that one repetition and the look behind it are in reach. -/

/-- The keyword of the enumeration. -/
def enumKeyword : Node :=
  ⟨.token, false, none, 0, 4, "enum", []⟩

/-- The byte offset behind the name. -/
def nameStop (letters : List Char) : Nat :=
  5 + Draft.byteSize ('A' :: letters)

/-- The name of the enumeration. -/
def enumLabel (letters : List Char) : Node :=
  ⟨.typeIdentifier, true, some .name, 5, nameStop letters, String.ofList ('A' :: letters), []⟩

/-- The body of the enumeration, which begins at a byte offset and holds nothing between its braces. -/
def emptyBody (start : Nat) (text : String) : Node :=
  ⟨.enumVariantList, true, some .body, start, start + 2, text,
    [⟨.token, false, none, start, start + 1, "\x7b", []⟩,
      ⟨.token, false, none, start + 1, start + 2, "\x7d", []⟩]⟩

/-- The draft in front of the source. -/
def draftAtKeyword (letters : List Char) (bound : Nat) : Draft :=
  ⟨enumerationChars letters, 0, 0, [], [], bound⟩

/-- The draft in front of the name. -/
def draftAtName (letters : List Char) (bound : Nat) : Draft :=
  ⟨'A' :: (letters ++ ['\x7b', '\x7d']), 5, 4, [], [enumKeyword], bound⟩

/-- The draft in front of the body. -/
def draftAtBody (letters : List Char) (bound : Nat) : Draft :=
  ⟨['\x7b', '\x7d'], nameStop letters, nameStop letters, [], [enumLabel letters, enumKeyword], bound⟩

/-- The draft behind a source that was read to its end. -/
def draftAtEnd (letters : List Char) (done : List Node) (bound : Nat) : Draft :=
  ⟨[], nameStop letters + 2, nameStop letters + 2, [], done, bound⟩

/-! ## Reading the enumeration -/

theorem many_from_some {reader : Reader Unit} {draft next : Draft}
    (h : reader draft = some ((), next)) :
    manyFrom reader (bound + 1) draft = manyFrom reader bound next := by
  rw [manyFrom, h]

/-- Name characters in front of a brace are read as one run. -/
theorem name_run_letters (h : ∀ c ∈ letters, isNameNext c = true) :
    Lexical.nameRun (letters ++ ['\x7b', '\x7d']) = letters.length := by
  have hbrace : isNameNext '\x7b' = false := by decide +kernel
  rw [Lexical.nameRun, List.takeWhile_append_of_pos h, List.takeWhile_cons_of_neg (by simp [hbrace]),
    List.append_nil]

/-- The name is read to its end. -/
theorem read_name (h : ∀ c ∈ letters, isNameNext c = true) (bound : Nat) :
    name .typeIdentifier (some .name) (draftAtName letters (bound + 2)) =
      some ((), draftAtBody letters (bound + 2)) := by
  have hlength : Lexical.name? ('A' :: (letters ++ ['\x7b', '\x7d'])) =
      some (letters.length + 1) := by
    rw [Nat.add_comm, ← name_run_letters h]
    rfl
  have htake : ('A' :: (letters ++ ['\x7b', '\x7d'])).take (letters.length + 1) = 'A' :: letters := by
    rw [List.take_succ_cons, List.take_left]
  have hdrop : ('A' :: (letters ++ ['\x7b', '\x7d'])).drop (letters.length + 1) =
      ['\x7b', '\x7d'] := by
    rw [List.drop_succ_cons, List.drop_left]
  unfold name lexeme draftAtName Draft.push Draft.after Draft.leaf Draft.flush
  simp only [hlength, htake, hdrop]
  rfl

/-- What is read of an enumeration behind its name. -/
def enumBehindName (sub : SubReader) : Reader Kind := do
  optional (typeParameters sub)
  optional (whereClause sub)
  enumVariantList sub
  return .enumItem

theorem read_enum (h : ∀ c ∈ letters, isNameNext c = true) (sub : SubReader) (bound : Nat) :
    ∃ text, enum sub (draftAtKeyword letters (bound + 2)) =
      some (.enumItem, draftAtEnd letters
        [emptyBody (nameStop letters) text, enumLabel letters, enumKeyword] (bound + 2)) := by
  have hkeyword : enum sub (draftAtKeyword letters (bound + 2)) =
      (name .typeIdentifier (some .name) >>= fun _ => enumBehindName sub)
        (draftAtName letters (bound + 2)) := rfl
  rw [hkeyword, read_bind (read_name h bound)]
  exact ⟨_, rfl⟩

/-- The node of the enumeration. -/
def enumNode (letters : List Char) (text bodyText : String) : Node :=
  ⟨.enumItem, true, none, 0, nameStop letters + 2, text,
    [enumKeyword, enumLabel letters, emptyBody (nameStop letters) bodyText]⟩

theorem read_item (h : ∀ c ∈ letters, isNameNext c = true) (sub : SubReader) (bound : Nat) :
    ∃ text bodyText, item sub (draftAtKeyword letters (bound + 2)) =
      some ((), draftAtEnd letters [enumNode letters text bodyText] (bound + 2)) := by
  obtain ⟨bodyText, henum⟩ := read_enum h sub bound
  -- Neither a visibility nor a function stands here, so the kind is read next.
  have hitem : item sub (draftAtKeyword letters (bound + 2)) =
      apart (enum sub >>= fun kind => fold (draftAtKeyword letters (bound + 2)) kind none)
        (draftAtKeyword letters (bound + 2)) := rfl
  have hflush : { (draftAtKeyword letters (bound + 2)).flush with done := [] } =
      draftAtKeyword letters (bound + 2) := rfl
  refine ⟨(draftAtKeyword letters (bound + 2)).textTo (nameStop letters + 2), bodyText, ?_⟩
  rw [hitem, apart, hflush, read_bind henum]
  rfl

/-- The source is one statement. -/
theorem read_statements (h : ∀ c ∈ letters, isNameNext c = true) (depth bound : Nat) :
    ∃ text bodyText, statements depth (draftAtKeyword letters (bound + 2)) =
      some ((), draftAtEnd letters [enumNode letters text bodyText] (bound + 2)) := by
  obtain ⟨text, bodyText, hitem⟩ := read_item h (run depth) bound
  have hstatement : orElse (statement (run depth)) stepOver (draftAtKeyword letters (bound + 2)) =
      some ((), draftAtEnd letters [enumNode letters text bodyText] (bound + 2)) := by
    have hfirst : statement (run depth) (draftAtKeyword letters (bound + 2)) =
        orElse (item (run depth)) (orElse (macroStatement (run depth))
          (expressionStatement (run depth))) (draftAtKeyword letters (bound + 2)) := rfl
    rw [orElse, hfirst, orElse, hitem]
  refine ⟨text, bodyText, ?_⟩
  -- The first round reads the item and the second one finds the end of the source.
  exact congrArg (fun draft => some ((), draft)) (Eq.trans (many_from_some hstatement) rfl)

end Grammar

/-- The tree of a source with one enumeration shows it under its name and holds no integer literal. -/
theorem source_file_enumeration {letters : List Char} (h : ∀ c ∈ letters, isNameNext c = true) :
    (∃ item ∈ (Grammar.sourceFile (enumerationSource letters)).preorder,
      item.kind = .enumItem ∧ item.childText .name = String.ofList ('A' :: letters)) ∧
    ∀ node ∈ (Grammar.sourceFile (enumerationSource letters)).preorder,
      node.kind ≠ .integerLiteral := by
  obtain ⟨text, bodyText, hread⟩ :=
    Grammar.read_statements h (Grammar.depthFor (enumerationChars letters).length)
      ((letters ++ ['\x7b', '\x7d']).length + 5)
  have hchildren : (Grammar.sourceFile (enumerationSource letters)).children =
      [Grammar.enumNode letters text bodyText] := by
    have hdraft : Grammar.draftOf (enumerationChars letters) =
        Grammar.draftAtKeyword letters ((letters ++ ['\x7b', '\x7d']).length + 5 + 2) := rfl
    rw [Grammar.sourceFile, enumerationSource, String.toList_ofList, hdraft, hread]
    rfl
  have hnodes : (Grammar.enumNode letters text bodyText).preorder.map (·.kind) =
      [.enumItem, .token, .typeIdentifier, .enumVariantList, .token, .token] := rfl
  have hpreorder : (Grammar.sourceFile (enumerationSource letters)).preorder =
      Grammar.sourceFile (enumerationSource letters) ::
        (Grammar.enumNode letters text bodyText).preorder := by
    rw [Node.preorder_eq, hchildren]
    rfl
  rw [hpreorder]
  refine ⟨⟨Grammar.enumNode letters text bodyText,
    List.mem_cons_of_mem _ (Node.mem_preorder_self _), rfl, rfl⟩, ?_⟩
  refine List.forall_mem_cons.2 ⟨nofun, fun node hnode hliteral => ?_⟩
  have hkind := List.mem_map_of_mem (f := (·.kind)) hnode
  rw [hnodes, hliteral] at hkind
  exact absurd hkind (by decide)

end ProgramInterface
