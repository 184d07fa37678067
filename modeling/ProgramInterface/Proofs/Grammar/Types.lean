import ProgramInterface.Grammar.SourceFile
import ProgramInterface.Proofs.Grammar.Numbers
import ProgramInterface.Proofs.Grammar.Paths

/-!
# Reading types

A type as it is written is read as its syntax tree, wherever what stands behind it ends a type
(`read_type`).
-/

namespace ProgramInterface

open Lexical Draft Reader

namespace Grammar

variable {draft : Draft} {text gap rest : List Char} {sub : SubReader} {type : TypeTerm}

/-! ## How types begin -/

/-- The characters other than those of names that begin a type or a lifetime. -/
def openers : List Char :=
  '\'' :: typeSigns

/-- Whether a text begins as a type or a lifetime does. -/
def BeginsType (text : List Char) : Prop :=
  ∃ c tail, text = c :: tail ∧ (isNameStart c = true ∨ c ∈ openers)

theorem BeginsType.stops (h : BeginsType text) (behind : List Char) : Stops (text ++ behind) := by
  obtain ⟨c, tail, rfl, hstart | hsign⟩ := h
  · exact stops_of_next (name_next_of_start hstart)
  · have hall : ∀ c ∈ openers, isGap c = false ∧ c ≠ '/' := by decide
    intro d hd
    cases hd
    exact hall c hsign

theorem BeginsType.head_ne (h : BeginsType text) {c : Char} (hstart : isNameStart c = false)
    (hsign : c ∉ openers) (behind : List Char) :
    (text ++ behind).head? ≠ some c := by
  obtain ⟨d, tail, rfl, hd⟩ := h
  intro hhead
  cases hhead
  rcases hd with hd | hd
  · exact Bool.false_ne_true (hstart.symm.trans hd)
  · exact hsign hd

theorem BeginsType.append (h : BeginsType text) (behind : List Char) :
    BeginsType (text ++ behind) := by
  obtain ⟨c, tail, rfl, hc⟩ := h
  exact ⟨c, tail ++ behind, rfl, hc⟩

theorem begins_type_of_name {name : List Char} (h : IsWholeName name) : BeginsType name := by
  rcases h.cases with ⟨_, _, rfl, _⟩ | ⟨c, rest, rfl, hc, _⟩
  · exact ⟨_, _, rfl, .inl (by decide)⟩
  · exact ⟨c, rest, rfl, .inl hc⟩

theorem begins_type_of_spread {c : Char} {pieces : List (List Char)}
    (h : Spread ([c] :: pieces) text) (hc : c ∈ openers) : BeginsType text := by
  obtain ⟨rest, rfl⟩ := h.exists_head
  exact ⟨c, rest, rfl, .inr hc⟩

theorem primitive_spelled : ∀ name ∈ primitiveNames,
    name? name = some name.length ∧ name ∉ reservedWords := by
  decide

theorem begins_type (h : type.IsWritten) : BeginsType type.text := by
  cases h with
  | lifetime h =>
      obtain ⟨rest, rfl, _⟩ := h.cons
      exact ⟨_, _, rfl, .inr (by decide)⟩
  | primitive h => exact begins_type_of_name (primitive_spelled _ h).1
  | path hpath =>
      obtain ⟨name, rest, hname, htext⟩ := hpath.exists_name
      rw [TypeTerm.text, htext]
      exact (begins_type_of_name hname).append rest
  | @generic path gap list arguments hpath =>
      obtain ⟨name, rest, hname, htext⟩ := hpath.exists_name
      rw [TypeTerm.text, htext, List.append_assoc, List.append_assoc]
      exact (begins_type_of_name hname).append _
  | tuple _ _ _ htext => exact begins_type_of_spread htext.choose_spec (by decide)
  | slice _ _ htext => exact begins_type_of_spread htext (by decide)
  | array _ _ _ htext => exact begins_type_of_spread htext (by decide)
  | reference _ _ _ htext => exact begins_type_of_spread htext (by decide)

/-- Whether a reader reads a text, in front of what ends a type, as one named node of some kind. -/
def ReadsNode (reader : Reader Unit) (text : List Char) (related : Node → Prop) : Prop :=
  ∀ (draft : Draft) gap rest, draft.Stands text gap rest → Closes rest →
    ∃ node, reader draft = some ((), draft.past text gap rest (node :: draft.done)) ∧
      node.isNamed = true ∧ related node

/-! ## Items in brackets -/

/-- An item and what stands between it and the next one, or the closing bracket. -/
def itemStep (closing : String) (item : Reader Unit) : Reader Bool := do
  if ← sees closing then return false
  item
  if ← sees "," then
    token ","
    return true
  return false

theorem separated_eq (closing : String) (item : Reader Unit) :
    separated closing item = whileTrue (itemStep closing item) :=
  rfl

/-- Behind the first of some items stands a comma and the others, or the closing bracket. -/
theorem items_cons {closing item : List Char} {items : List (List Char)} {trailing : Bool}
    (h : Spread (commaSeparated trailing (item :: items) ++ [closing]) text) :
    (∃ gap gap' rest, IsBlank gap ∧ IsBlank gap' ∧
      Spread (commaSeparated trailing items ++ [closing]) rest ∧
      text = item ++ (gap ++ (",".toList ++ (gap' ++ rest)))) ∨
    (items = [] ∧ ∃ gap, IsBlank gap ∧ text = item ++ (gap ++ closing)) := by
  have hpieces : commaSeparated trailing (item :: items) =
      item :: ",".toList :: commaSeparated trailing items ∨
        (items = [] ∧ commaSeparated trailing (item :: items) = [item]) := by
    cases items with
    | nil =>
        cases trailing with
        | true => exact .inl rfl
        | false => exact .inr ⟨rfl, rfl⟩
    | cons next rest => exact .inl rfl
  rcases hpieces with hpieces | ⟨hnil, hpieces⟩
  · rw [hpieces] at h
    obtain ⟨gap, behind, hgap, _, hbehind, rfl⟩ := h.exists_tail (List.cons_ne_nil _ _)
    obtain ⟨gap', rest, hgap', _, hrest, rfl⟩ := hbehind.exists_tail (by simp)
    exact .inl ⟨gap, gap', rest, hgap, hgap', hrest, by simp⟩
  · rw [hpieces] at h
    obtain ⟨gap, behind, hgap, _, hbehind, rfl⟩ := h.exists_tail (List.cons_ne_nil _ _)
    cases hbehind
    exact .inr ⟨hnil, gap, hgap, by simp⟩

/-- Behind an item with a comma stands another one, perhaps. -/
theorem item_step_comma {item : Reader Unit} {closing : String} {next : Draft}
    (hsees : ¬ closing.toList <+: draft.rest) (hitem : item draft = some ((), next))
    (h : next.Stands ",".toList gap rest) : ∃ mark : Node, itemStep closing item draft =
      some (true, next.past ",".toList gap rest (mark :: next.done)) ∧ mark.IsToken := by
  obtain ⟨mark, hread, hmark⟩ := read_token h
  refine ⟨mark, ?_, hmark⟩
  rw [itemStep, read_if_false (sees_false hsees), read_bind hitem,
    read_if_true (sees_true (h.rest_eq ▸ List.prefix_append ..)), read_bind hread]
  rfl

/-- Behind an item without a comma stands no other one. -/
theorem item_step_last {item : Reader Unit} {closing : String} {next : Draft}
    (hsees : ¬ closing.toList <+: draft.rest) (hitem : item draft = some ((), next))
    (hcomma : next.rest.head? ≠ some ',') : itemStep closing item draft = some (false, next) := by
  have hnot : sees "," next = some (false, next) := sees_false (not_begins hcomma)
  rw [itemStep, read_if_false (sees_false hsees), read_bind hitem, read_if_false hnot]
  rfl

theorem items_begin {closing item : List Char} {trailing : Bool} {items : List (List Char)}
    (hitem : BeginsType item)
    (h : Spread (commaSeparated trailing (item :: items) ++ [closing]) text) : BeginsType text := by
  rcases items_cons h with ⟨gap, gap', rest, _, _, _, rfl⟩ | ⟨_, gap, _, rfl⟩
  · exact hitem.append _
  · exact hitem.append _

/-- Some items and their closing bracket begin with an item or the bracket. -/
theorem items_stop {closing : List Char} {trailing : Bool} {items : List (List Char)}
    (hclosing : ∀ behind, Stops (closing ++ behind)) (hbegins : ∀ item ∈ items, BeginsType item)
    (h : Spread (commaSeparated trailing items ++ [closing]) text) (behind : List Char) :
    Stops (text ++ behind) := by
  cases items with
  | nil =>
      cases h
      exact hclosing behind
  | cons item items => exact (items_begin (hbegins item (List.mem_cons_self ..)) h).stops behind

/-- The closing bracket of some items: a text that no type begins with and that ends one. -/
structure IsClosing (closing : String) : Prop where
  closes : ∀ behind, Closes (closing.toList ++ behind)
  apart : ∀ text behind, BeginsType text → ¬ closing.toList <+: text ++ behind
  comma : ∀ behind, (closing.toList ++ behind).head? ≠ some ','

/-- Items are read one by one, each to a node, up to the closing bracket. -/
theorem read_items {α : Type} {related : α → Node → Prop} {spelled : α → List Char}
    {item : Reader Unit} {closing : String} (hclosing : IsClosing closing) {items : List α}
    (hbegins : ∀ x ∈ items, BeginsType (spelled x))
    (hitem : ∀ x ∈ items, ReadsNode item (spelled x) (related x)) {trailing : Bool}
    (hspread : Spread (commaSeparated trailing (items.map spelled) ++ [closing.toList]) text)
    (h : draft.Stands text gap rest) :
    ∃ nodes last, Loops (itemStep closing item) draft last ∧
      token closing last = some ((), draft.past text gap rest (nodes.reverse ++ draft.done)) ∧
      NamedNodes related items nodes := by
  induction items generalizing text draft with
  | nil =>
      cases hspread
      have hend : itemStep closing item draft = some (false, draft) := by
        rw [itemStep, read_if_true (sees_true (h.rest_eq ▸ List.prefix_append ..))]
        rfl
      obtain ⟨mark, hread, hmark⟩ := read_token h
      exact ⟨[mark], draft, .stop hend, hread, .token hmark.unnamed (token_simple hmark) .nil⟩
  | cons x items ih =>
      have hx := hbegins x (List.mem_cons_self ..)
      have hothers : ∀ y ∈ items, BeginsType (spelled y) := fun y hy =>
        hbegins y (List.mem_cons_of_mem _ hy)
      have hsees : ¬ closing.toList <+: draft.rest :=
        h.rest_eq ▸ hclosing.apart _ _ (items_begin hx hspread)
      rcases items_cons hspread with ⟨gap₁, gap₂, tail, hgap₁, hgap₂, htail, rfl⟩ |
        ⟨hnil, gap₁, hgap₁, rfl⟩
      · -- The item and its comma are read; then the others are.
        have hstops := items_stop (fun behind => (hclosing.closes behind).ends_path.stops)
          (List.forall_mem_map.2 hothers) htail (gap ++ rest)
        have hcloses : Closes (",".toList ++ (gap₂ ++ (tail ++ (gap ++ rest)))) :=
          ⟨',', by decide, rfl⟩
        have hstands : draft.Stands (spelled x) gap₁
            (",".toList ++ (gap₂ ++ (tail ++ (gap ++ rest)))) :=
          h.cut (by simp) hgap₁ hcloses.ends_path.stops
        obtain ⟨node, hread, hnamed, hrelated⟩ :=
          hitem x (List.mem_cons_self ..) _ _ _ hstands hcloses
        have hcomma := hstands.next hgap₂ hstops (node :: draft.done)
        obtain ⟨mark, hstep, hmark⟩ := item_step_comma hsees hread hcomma
        have hnext := hcomma.next h.gap h.stops (mark :: node :: draft.done)
        obtain ⟨nodes, last, hloops, hend, hnodes⟩ := ih hothers
          (fun y hy => hitem y (List.mem_cons_of_mem _ hy)) htail hnext
        refine ⟨node :: mark :: nodes, last, .step hstep ?_ hloops, ?_,
          .named hnamed hrelated (.token hmark.unnamed (token_simple hmark) hnodes)⟩
        · rw [h.rest_eq]
          simp only [past, List.length_append]
          have hpos : 0 < ",".toList.length := by decide
          omega
        · rw [hend, past_past, past_past]
          simp [past]
      -- The last item: the closing bracket stands behind it.
      · have hstands : draft.Stands (spelled x) gap₁ (closing.toList ++ (gap ++ rest)) :=
          h.cut (by simp) hgap₁ (hclosing.closes _).ends_path.stops
        obtain ⟨node, hread, hnamed, hrelated⟩ := hitem x (List.mem_cons_self ..) _ _ _ hstands
          (hclosing.closes _)
        obtain ⟨mark, hend, hmark⟩ := read_token (hstands.next h.gap h.stops (node :: draft.done))
        rw [List.map_eq_nil_iff.1 hnil]
        refine ⟨[node, mark], _, .stop (item_step_last hsees hread (hclosing.comma _)), ?_,
          .named hnamed hrelated (.token hmark.unnamed (token_simple hmark) .nil)⟩
        rw [hend, past_past]
        simp [past]

/-- Items in brackets are read with the brackets around them. -/
theorem read_bracketed {α : Type} {related : α → Node → Prop} {spelled : α → List Char}
    {item : Reader Unit} {opening closing : String} (hclosing : IsClosing closing) {items : List α}
    (hbegins : ∀ x ∈ items, BeginsType (spelled x))
    (hitem : ∀ x ∈ items, ReadsNode item (spelled x) (related x)) {trailing : Bool}
    (hspread : Spread (opening.toList ::
      (commaSeparated trailing (items.map spelled) ++ [closing.toList])) text)
    (h : draft.Stands text gap rest) :
    ∃ nodes, bracketed opening closing item draft =
      some ((), draft.past text gap rest (nodes.reverse ++ draft.done)) ∧
      NamedNodes related items nodes := by
  obtain ⟨gap', list, hgap, _, hlist, rfl⟩ := hspread.exists_tail (by simp)
  have hstops := items_stop (fun behind => (hclosing.closes behind).ends_path.stops)
    (List.forall_mem_map.2 hbegins) hlist (gap ++ rest)
  have hopening : draft.Stands opening.toList gap' (list ++ (gap ++ rest)) :=
    h.cut (by simp) hgap hstops
  obtain ⟨mark, hread, hmark⟩ := read_token hopening
  have hinner := hopening.next h.gap h.stops (mark :: draft.done)
  obtain ⟨nodes, last, hloops, hend, hnodes⟩ := read_items hclosing hbegins hitem hlist hinner
  refine ⟨mark :: nodes, ?_, .token hmark.unnamed (token_simple hmark) hnodes⟩
  rw [bracketed, read_bind hread, separated_eq, read_bind (hloops.while_true hinner.bound), hend,
    past_past]
  simp

/-! ## Arguments -/

theorem lifetime_none {text : List Char} (h : text.head? ≠ some '\'') : lifetime? text = none := by
  unfold lifetime?
  split
  · exact absurd rfl h
  · rfl

theorem at_lifetime_eq (draft : Draft) : atLifetime draft =
    some ((lifetime? draft.rest).isSome && (char? draft.rest).isNone, draft) :=
  rfl

/-- A lifetime is read to its end in front of what breaks words. -/
theorem read_lifetime (h : IsWholeLifetime text) (hstands : draft.Stands text gap rest)
    (hbreaks : Breaks (gap ++ rest)) : ∃ node, atLifetime draft = some (true, draft) ∧
      lifetime draft = some ((), draft.past text gap rest (node :: draft.done)) ∧
      node.isNamed = true ∧ (TypeTerm.lifetime text).IsTree node ∧ node.IsSimple := by
  have hlifetime : lifetime? draft.rest = some text.length :=
    hstands.rest_eq ▸ h.lifetime_in_front hbreaks
  have hchar : char? draft.rest = none := hstands.rest_eq ▸ h.not_char hbreaks
  have hread : lifetime draft = _ := read_lexeme hstands hlifetime
  have hsimple : Node.IsSimple (draft.leaf .lifetime true none text.length) :=
    Node.simple_of_children nofun nofun
  refine ⟨_, ?_, hread, rfl, .lifetime rfl (by rw [hstands.leaf_eq]) hsimple, hsimple⟩
  rw [at_lifetime_eq, hlifetime, hchar]
  rfl

/-- A lifetime is read as an argument. -/
theorem read_lifetime_argument (h : IsWholeLifetime text) :
    ReadsNode (typeArgument sub) text (TypeTerm.lifetime text).IsTree := by
  intro draft gap rest hstands hrest
  obtain ⟨node, hat, hread, hnamed, htree, _⟩ := read_lifetime h hstands
    (breaks_append hstands.gap fun _ => hrest.ends_path.breaks)
  exact ⟨node, (read_if_true hat).trans hread, hnamed, htree⟩

/-- Whether a name that is not reserved stands in front of a draft, or what opens another type. -/
def Front (draft : Draft) : Prop :=
  (∃ name gap rest, draft.Stands name gap rest ∧ IsWholeName name ∧ Breaks rest ∧
    name ∉ reservedWords) ∨ ∃ c tail, draft.rest = c :: tail ∧ c ∈ typeSigns

theorem front_of_path {path : PathTerm} (hpath : path.IsWritten) (h : draft.Stands path.text gap rest)
    (hbreaks : Breaks rest) : Front draft := by
  obtain ⟨gap', rest', hhead, hnext⟩ := stands_head hpath.toIsSpelled h hbreaks
  exact .inl ⟨_, _, _, hhead, head_is_name hpath.toIsSpelled, hnext, hpath.head⟩

theorem front_of_spread {c : Char} {pieces : List (List Char)} (hspread : Spread ([c] :: pieces) text)
    (hc : c ∈ typeSigns) (h : draft.Stands text gap rest) : Front draft := by
  obtain ⟨tail, rfl⟩ := hspread.exists_head
  exact .inr ⟨c, _, h.rest_eq, hc⟩

/-- The path of a generic type stands in front of the type. -/
theorem stands_path {path : PathTerm} {gap gap' list rest : List Char} {items : List (List Char)}
    (hgap : IsBlank gap) (hlist : IsBracketed '<' '>' items list)
    (h : draft.Stands (path.text ++ gap ++ list) gap' rest) :
    draft.Stands path.text gap (list ++ (gap' ++ rest)) ∧ EndsPath (list ++ (gap' ++ rest)) := by
  obtain ⟨tail, rfl⟩ := hlist.choose_spec.exists_head
  have hends : EndsPath (['<'] ++ tail ++ (gap' ++ rest)) := ⟨'<', List.mem_cons_self .., rfl⟩
  exact ⟨h.cut (by simp) hgap hends.stops, hends⟩

theorem front_of_type (hwritten : type.IsWritten) (htype : type.IsType)
    (h : draft.Stands type.text gap rest) (hrest : Closes rest) : Front draft := by
  cases hwritten with
  | lifetime => exact htype.elim
  | primitive hname =>
      obtain ⟨hspelled, hreserved⟩ := primitive_spelled _ hname
      exact .inl ⟨_, _, _, h, hspelled, hrest.ends_path.breaks, hreserved⟩
  | path hpath => exact front_of_path hpath h hrest.ends_path.breaks
  | generic hpath hgap _ _ hlist =>
      obtain ⟨hstands, hends⟩ := stands_path hgap hlist h
      exact front_of_path hpath hstands hends.breaks
  | tuple _ _ _ htext => exact front_of_spread htext.choose_spec (by decide) h
  | slice _ _ htext => exact front_of_spread htext (by decide) h
  | array _ _ _ htext => exact front_of_spread htext (by decide) h
  | reference _ _ _ htext => exact front_of_spread htext (by decide) h

theorem Front.head_ne (h : Front draft) {c : Char} (hstart : isNameStart c = false)
    (hc : c ∉ typeSigns) : draft.rest.head? ≠ some c := by
  rcases h with ⟨name, gap, rest, hstands, hname, _⟩ | ⟨d, tail, heq, hd⟩
  · exact hstands.rest_eq ▸ name_head_ne hname hstart _
  · rw [heq]
    exact fun hhead => hc (Option.some.inj hhead ▸ hd)

theorem breaks_of_opener {c : Char} {tail : List Char} (hc : c ∈ typeSigns) :
    Breaks (c :: tail) := by
  intro d hd
  cases hd
  exact (by decide : ∀ c ∈ typeSigns, breaksWord c = true) c hc

/-- What opens a type breaks words, unless it is a name. -/
theorem Front.breaks (h : Front draft) (hnext : draft.rest.head?.any isNameNext = false) :
    Breaks draft.rest := by
  rcases h with ⟨name, gap, rest, hstands, hname, _⟩ | ⟨c, tail, heq, hc⟩
  · obtain ⟨c, tail, rfl, hstart⟩ : ∃ c tail, name = c :: tail ∧ isNameStart c = true := by
      rcases hname.cases with ⟨_, _, rfl, _⟩ | ⟨c, tail, rfl, hc, _⟩
      · exact ⟨_, _, rfl, by decide⟩
      · exact ⟨c, tail, rfl, hc⟩
    rw [hstands.rest_eq] at hnext
    exact Bool.noConfusion (hnext.symm.trans (name_next_of_start hstart))
  · exact heq ▸ breaks_of_opener hc

theorem Front.not_at_reserved (h : Front draft) {word : List Char} (hword : word ∈ reservedWords) :
    beginsWithWord word draft.rest = false := by
  rcases h with ⟨name, gap, rest, hstands, hname, hbreaks, hreserved⟩ | ⟨c, tail, heq, hc⟩
  · exact Grammar.not_at_reserved hstands hname hbreaks hreserved hword
  · obtain ⟨hchars, hlong⟩ := reserved_spelled word hword
    exact not_at_word (heq ▸ breaks_of_opener hc) hchars (List.ne_nil_of_length_pos (by omega))

theorem Front.no_literal (h : Front draft) : NoLiteral draft.rest := by
  rcases h with ⟨name, gap, rest, hstands, hname, hbreaks, _⟩ | ⟨c, tail, heq, hc⟩
  · exact hstands.rest_eq ▸ hname.no_literal (breaks_append hstands.gap fun _ => hbreaks)
  · exact heq ▸ no_literal_of_sign hc tail

theorem plain_literal_none (h : NoLiteral draft.rest) : plainLiteral draft = none := by
  have hquoted : quotedLiteral draft = none :=
    lexeme_none (by rw [h.string, h.char]; rfl)
  rw [plainLiteral, or_else_none hquoted, number, or_else_none (lexeme_none h.float)]
  exact lexeme_none h.integer

/-- Where a type stands no literal is read. -/
theorem literal_none (h : Front draft) (hpending : draft.pending = []) : literal draft = none := by
  have htruth : truthValue draft = none := lexeme_none <| by
    rw [h.not_at_reserved (by decide), h.not_at_reserved (by decide)]
    rfl
  rw [literal, or_else_none (plain_literal_none h.no_literal), or_else_none htruth]
  exact branch_none _ _ hpending <| read_bind_none <| sign_none <| sign_ne <|
    h.head_ne (by decide) (by decide)

/-- A type is read as an argument. -/
theorem read_type_argument (hwritten : type.IsWritten) (htype : type.IsType)
    (hread : ReadsNode (sub (.type true)) type.text type.IsTree) :
    ReadsNode (typeArgument sub) type.text type.IsTree := by
  intro draft gap rest h hrest
  have hfront := front_of_type hwritten htype h hrest
  obtain ⟨node, hnode, hnamed, htree⟩ := hread _ _ _ (h.with_done []) hrest
  have hlifetime : atLifetime draft = some (false, draft) := by
    rw [at_lifetime_eq, lifetime_none (hfront.head_ne (by decide) (by decide))]
    rfl
  have hblock : sees "\x7b" draft = some (false, draft) :=
    sees_false (not_begins (hfront.head_ne (by decide) (by decide)))
  refine ⟨node, ?_, hnamed, htree⟩
  rw [typeArgument, read_if_false hlifetime, read_if_false hblock,
    or_else_none (literal_none hfront h.pending)]
  refine read_apart h (?_ : _ = some ((), draft.past type.text gap rest [node]))
  have hbinding : sees "=" (draft.past type.text gap rest [node]) = some (false, _) :=
    sees_false (not_begins (hrest.head_ne (by decide)))
  have hbounds : atSign ":" (draft.past type.text gap rest [node]) = some (false, _) :=
    at_sign_false (sign_ne (hrest.head_ne (by decide)))
  rw [read_bind (read_mark _), read_bind hnode]
  exact (read_if_false hbinding).trans (read_if_false hbounds)

/-! ## Paths and generic types -/

/-- A path is read as a type where no other type begins. -/
theorem simple_type_of_path {path : PathTerm} (hpath : path.IsSpelled)
    (hreserved : path.head ∉ reservedWords) (h : draft.Stands path.text gap rest)
    (hrest : EndsPath rest) : simpleType sub draft = typePath sub draft := by
  obtain ⟨gap', rest', hhead, hbreaks⟩ := stands_head hpath h hrest.breaks
  have hname := head_is_name hpath
  have hsign : ∀ c, isNameStart c = false → draft.rest.head? ≠ some c := fun c hc =>
    hhead.rest_eq ▸ name_head_ne hname hc _
  have hword : atWord "impl" draft = some (false, draft) :=
    at_word_false (not_at_reserved hhead hname hbreaks hreserved (by decide))
  rw [simpleType, read_bind (read_rest draft)]
  generalize draft.rest.head? = head at hsign
  split
  · exact absurd rfl (hsign '&' (by decide))
  · exact absurd rfl (hsign '*' (by decide))
  · exact absurd rfl (hsign '(' (by decide))
  · exact absurd rfl (hsign '[' (by decide))
  · exact absurd rfl (hsign '!' (by decide))
  · exact absurd rfl (hsign '?' (by decide))
  · rw [read_if_false hword, or_else_none (function_pointer_none hhead hname hbreaks hreserved),
      or_else_none (quantified_type_none hhead hname hbreaks hreserved),
      or_else_none (dynamic_type_none hhead hname hbreaks hreserved),
      or_else_none (macro_invocation_none hpath h hrest none)]

/-- A path is read as a type. -/
theorem read_path {path : PathTerm} (hpath : path.IsWritten) :
    ReadsNode (simpleType sub) path.text (TypeTerm.path path).IsTree := by
  intro draft gap rest h hrest
  obtain ⟨first, node, hhead, hbound, hsteps, hnode, hkind⟩ :=
    read_type_names sub hpath (h.with_done []) rfl hrest.ends_path
  refine ⟨node, ?_, hnode.named, .path hkind hnode.text hnode.simple⟩
  rw [simple_type_of_path hpath.toIsSpelled hpath.head h hrest.ends_path]
  refine read_apart h (?_ : _ = some ((), draft.past path.text gap rest [node]))
  rw [read_bind (read_mark _), read_bind hhead]
  exact hsteps.many (path_step_none hrest) hbound

/-- A primitive type is read as one. -/
theorem read_primitive (hname : text ∈ primitiveNames) :
    ReadsNode (simpleType sub) text (TypeTerm.primitive text).IsTree := by
  intro draft gap rest h hrest
  obtain ⟨hspelled, hreserved⟩ := primitive_spelled _ hname
  have hpath : (PathTerm.mk [] text text).IsSpelled := ⟨nofun, hspelled, .last _⟩
  obtain ⟨node, hread, hnode, hkind⟩ :=
    read_path_head sub (h.with_done []) hspelled hrest.ends_path.breaks
  refine ⟨node, ?_, hnode.named, .primitive (hkind.trans (if_pos hname)) hnode.text hnode.simple⟩
  rw [simple_type_of_path hpath hreserved h hrest.ends_path]
  refine read_apart h (?_ : _ = some ((), draft.past text gap rest [node]))
  rw [read_bind (read_mark _), read_bind hread]
  exact many_none (path_step_none hrest)

theorem is_closing_angle : IsClosing ">" where
  closes _ := ⟨'>', by decide, rfl⟩
  apart _ _ h := not_begins (h.head_ne (by decide) (by decide) _)
  comma _ := by simp

theorem is_closing_paren : IsClosing ")" where
  closes _ := ⟨')', by decide, rfl⟩
  apart _ _ h := not_begins (h.head_ne (by decide) (by decide) _)
  comma _ := by simp

theorem simple_with_role {node : Node} (h : node.IsSimple) (role : Option Role) :
    Node.IsSimple { node with role := role } :=
  Node.simple_of_children (h node node.mem_preorder_self) fun child hchild inner hinner =>
    h inner (Node.mem_preorder.2 (.inr ⟨child, hchild, hinner⟩))

/-- Type arguments are read as a node with one child for each. -/
theorem read_type_arguments {arguments : List TypeTerm}
    (hwritten : ∀ argument ∈ arguments, argument.IsWritten)
    (hread : ∀ argument ∈ arguments, argument.IsType →
      ReadsNode (sub (.type true)) argument.text argument.IsTree)
    (hlist : IsBracketed '<' '>' (arguments.map TypeTerm.text) text)
    (h : draft.Stands text gap rest) : ∃ list : Node,
      typeArguments sub draft = some ((), draft.past text gap rest (list :: draft.done)) ∧
      list.role = some .typeArguments ∧ list.kind = .typeArguments ∧
      NamedNodes TypeTerm.IsTree arguments list.children := by
  have hitems : ∀ argument ∈ arguments,
      ReadsNode (typeArgument sub) argument.text argument.IsTree := by
    intro argument hargument
    have hspelled := hwritten argument hargument
    have htype := hread argument hargument
    cases argument with
    | lifetime text =>
        cases hspelled with
        | lifetime hlifetime => exact read_lifetime_argument hlifetime
    | _ => exact read_type_argument hspelled trivial (htype trivial)
  obtain ⟨trailing, hspread⟩ := hlist
  have hpieces : Spread ("<".toList ::
      (commaSeparated trailing (arguments.map TypeTerm.text) ++ [">".toList])) text := hspread
  obtain ⟨nodes, hbracketed, hnodes⟩ := read_bracketed is_closing_angle
    (fun argument hargument => begins_type (hwritten argument hargument)) hitems hpieces
    (h.with_done [])
  refine ⟨_, read_branch h .typeArguments (some .typeArguments) hbracketed, rfl, rfl, ?_⟩
  simpa [Draft.node] using hnodes

/-- Type arguments behind a path are read with the path into one node. -/
theorem path_step_arguments {origin : Draft} {front gap gap' rest : List Char} {head list : Node}
    (hhead : head.kind = .typeIdentifier ∨ head.kind = .scopedTypeIdentifier)
    (hbracket : text.head? = some '<') (h : origin.Stands front gap (text ++ (gap' ++ rest)))
    (hgap : IsBlank gap') (hstops : Stops rest)
    (hread : typeArguments sub (origin.past front gap (text ++ (gap' ++ rest))
        [{ head with role := some .type }]) =
      some ((), origin.past (front ++ gap ++ text) gap' rest
        [list, { head with role := some .type }])) :
    pathStep sub origin (origin.past front gap (text ++ (gap' ++ rest)) [head]) =
      some ((), origin.past (front ++ gap ++ text) gap' rest
        [origin.node .genericType none (front ++ gap ++ text)
          [{ head with role := some .type }, list]]) := by
  obtain ⟨tail, rfl⟩ : ∃ tail, text = '<' :: tail := by
    cases text with
    | nil => cases hbracket
    | cons c tail => exact ⟨tail, by rw [Option.some.inj hbracket]⟩
  have hcolon : (origin.past front gap ('<' :: tail ++ (gap' ++ rest)) [head]).rest.head? ≠
      some ':' := nofun
  have hsign : atSign "::" (origin.past front gap ('<' :: tail ++ (gap' ++ rest)) [head]) =
      some (false, _) := at_sign_false (sign_ne hcolon)
  have hsees : sees "<" (origin.past front gap ('<' :: tail ++ (gap' ++ rest)) [head]) =
      some (true, _) := sees_true ⟨_, rfl⟩
  have hrole : setRole .type (origin.past front gap ('<' :: tail ++ (gap' ++ rest)) [head]) =
      some ((), origin.past front gap ('<' :: tail ++ (gap' ++ rest))
        [{ head with role := some .type }]) := rfl
  have hall : origin.Stands (front ++ gap ++ ('<' :: tail)) gap' rest :=
    h.cut (by simp) hgap hstops
  have hkind : ¬ (some head.kind ≠ some .typeIdentifier ∧
      some head.kind ≠ some .scopedTypeIdentifier) := by
    rcases hhead with hhead | hhead <;> simp [hhead]
  rw [pathStep, read_if_false hsign, read_bind (show lastKind _ = some (some head.kind, _) from rfl)]
  dsimp only
  rw [if_neg hkind, read_if_true hsees, read_bind hrole, read_bind hread]
  exact read_fold hall .genericType none _

/-- A path with type arguments behind it is read as a generic type. -/
theorem read_generic {path : PathTerm} {gap list : List Char} {arguments : List TypeTerm}
    (hpath : path.IsWritten) (hgap : IsBlank gap)
    (hwritten : ∀ argument ∈ arguments, argument.IsWritten)
    (hlist : IsBracketed '<' '>' (arguments.map TypeTerm.text) list)
    (hread : ∀ argument ∈ arguments, argument.IsType →
      ReadsNode (sub (.type true)) argument.text argument.IsTree) :
    ReadsNode (simpleType sub) (path.text ++ gap ++ list)
      (TypeTerm.generic path gap arguments (path.text ++ gap ++ list)).IsTree := by
  intro draft gap' rest h hrest
  obtain ⟨hstands, hends⟩ := stands_path hgap hlist h
  obtain ⟨first, head, hhead, hbound, hsteps, hnode, hkind⟩ :=
    read_type_names sub hpath (hstands.with_done []) rfl hends
  obtain ⟨node, hread, hrole, hlistKind, hnodes⟩ := read_type_arguments hwritten hread hlist
    (hstands.next h.gap h.stops [{ head with role := some .type }])
  rw [past_past, past_done] at hread
  have hstep := path_step_arguments hkind (hlist.choose_spec.head (List.cons_ne_nil _ _)) hstands
    h.gap h.stops hread
  refine ⟨draft.node .genericType none (path.text ++ gap ++ list)
    [{ head with role := some .type }, node], ?_, rfl, .generic rfl rfl rfl rfl hnode.text
      (simple_with_role hnode.simple _) hrole hlistKind hnodes⟩
  have hless : rest.length < (list ++ (gap' ++ rest)).length := by
    obtain ⟨tail, rfl⟩ := hlist.choose_spec.exists_head
    simp
    omega
  rw [simple_type_of_path hpath.toIsSpelled hpath.head hstands hends]
  refine read_apart h (?_ : _ = some ((), draft.past (path.text ++ gap ++ list) gap' rest [_]))
  rw [read_bind (read_mark _), read_bind hhead]
  exact (hsteps.trans (.step hstep hless (.stop _))).many (path_step_none hrest) hbound

/-! ## Tuples, references and arrays -/

/-- Types between parentheses are read as a tuple. -/
theorem read_tuple {elements : List TypeTerm} (hsome : elements ≠ [])
    (hwritten : ∀ element ∈ elements, element.IsWritten)
    (hread : ∀ element ∈ elements, ReadsNode (sub (.type true)) element.text element.IsTree)
    (htext : IsBracketed '(' ')' (elements.map TypeTerm.text) text) :
    ReadsNode (simpleType sub) text (TypeTerm.tuple elements text).IsTree := by
  intro draft gap rest h hrest
  have hbegins : ∀ element ∈ elements, BeginsType element.text := fun element helement =>
    begins_type (hwritten element helement)
  obtain ⟨trailing, hspread⟩ := htext
  have hpieces : Spread ("(".toList ::
      (commaSeparated trailing (elements.map TypeTerm.text) ++ [")".toList])) text := hspread
  have hhead : draft.rest.head? = some '(' := by
    obtain ⟨tail, rfl⟩ := hspread.exists_head
    exact h.rest_eq ▸ rfl
  have hunit : branch .unitType none (do token "("; token ")") draft = none := by
    obtain ⟨gap', list, hgap, _, hlist, rfl⟩ := hpieces.exists_tail (by simp)
    obtain ⟨element, others, rfl⟩ := List.exists_cons_of_ne_nil hsome
    have hlistBegins := items_begin (hbegins element (List.mem_cons_self ..)) hlist
    have hopening : ({ draft with done := [] } : Draft).Stands "(".toList gap'
        (list ++ (gap ++ rest)) := (h.with_done []).cut (by simp) hgap (hlistBegins.stops _)
    obtain ⟨mark, hmark, _⟩ := read_token hopening
    refine branch_none _ _ h.pending ?_
    rw [read_bind hmark]
    exact token_none (is_closing_paren.apart _ _ hlistBegins)
  obtain ⟨nodes, hbracketed, hnodes⟩ :=
    read_bracketed is_closing_paren hbegins hread hpieces (h.with_done [])
  have hbranch := read_branch h .tupleType none hbracketed
  rw [List.reverse_append, List.reverse_reverse] at hbranch
  refine ⟨draft.node .tupleType none text nodes, ?_, rfl, .tuple rfl rfl hnodes⟩
  rw [simpleType, read_bind (read_rest draft), hhead]
  exact (or_else_none hunit).trans hbranch

/-- What stands behind the sign of references. -/
def referentType (sub : SubReader) : Reader Unit := do
  if ← atLifetime then lifetime
  optional (word "mut")
  sub (.type false)

/-- A lifetime and a type are read behind the sign of references. -/
theorem read_referent {lifetime gap' : List Char} {referent : TypeTerm}
    (hlifetime : IsWholeLifetime lifetime) (htype : referent.IsType) (hwritten : referent.IsWritten)
    (hread : ReadsNode (sub (.type false)) referent.text referent.IsTree)
    (h : draft.Stands lifetime gap' (referent.text ++ (gap ++ rest)))
    (hapart : gap' = [] → runTogether lifetime referent.text = false) (hgap : IsBlank gap)
    (hrest : Closes rest) : ∃ leaf inner, referentType sub draft =
      some ((), draft.past (lifetime ++ gap' ++ referent.text) gap rest
        (inner :: leaf :: draft.done)) ∧
      leaf.IsSimple ∧ referent.IsTree inner := by
  have hstops := hrest.ends_path.stops
  have hfront := front_of_type hwritten htype (h.next hgap hstops []) hrest
  have hbreaks : Breaks (gap' ++ (referent.text ++ (gap ++ rest))) := breaks_append h.gap fun hnil =>
    hfront.breaks <| by
      obtain ⟨c, tail, htail, _⟩ := begins_type hwritten
      have hnext := hlifetime.apart (hapart hnil)
      rw [htail] at hnext ⊢
      exact hnext
  obtain ⟨leaf, hat, hleaf, _, _, hsimple⟩ := read_lifetime hlifetime h hbreaks
  have hword : beginsWithWord "mut".toList (draft.past lifetime gap' (referent.text ++ (gap ++ rest))
      (leaf :: draft.done)).rest = false := hfront.not_at_reserved (by decide)
  obtain ⟨inner, hinner, _, htree⟩ := hread _ _ _ (h.next hgap hstops (leaf :: draft.done)) hrest
  refine ⟨leaf, inner, ?_, hsimple, htree⟩
  rw [past_past, past_done] at hinner
  rw [referentType, read_bind hat]
  dsimp only
  rw [if_pos rfl, read_bind hleaf, read_bind (optional_none (word_none hword)), hinner]

/-- A lifetime and a type behind the sign of references are read as a reference. -/
theorem read_reference {lifetime : List Char} {referent : TypeTerm}
    (hlifetime : IsWholeLifetime lifetime) (htype : referent.IsType) (hwritten : referent.IsWritten)
    (hread : ReadsNode (sub (.type false)) referent.text referent.IsTree)
    (htext : Spread [['&'], lifetime, referent.text] text) :
    ReadsNode (simpleType sub) text (TypeTerm.reference lifetime referent text).IsTree := by
  intro draft gap rest h hrest
  obtain ⟨gap₁, behind, hgap₁, _, hbehind, rfl⟩ := htext.exists_tail (List.cons_ne_nil _ _)
  obtain ⟨gap₂, last, hgap₂, hapart, hlast, rfl⟩ := hbehind.exists_tail (List.cons_ne_nil _ _)
  cases hlast
  have hhead : draft.rest.head? = some '&' := h.rest_eq ▸ rfl
  have hsign : ({ draft with done := [] } : Draft).Stands "&".toList gap₁
      (lifetime ++ (gap₂ ++ (referent.text ++ (gap ++ rest)))) :=
    (h.with_done []).cut (by simp) hgap₁ ((begins_type (.lifetime hlifetime)).stops _)
  obtain ⟨mark, hmark, htoken⟩ := read_token hsign
  obtain ⟨leaf, inner, hinner, hsimple, htree⟩ := read_referent hlifetime htype hwritten hread
    (hsign.next hgap₂ ((begins_type hwritten).stops _) [mark]) (fun hnil => hapart hnil _ rfl)
    h.gap hrest
  rw [past_past, past_done] at hinner
  have hbody : (do token "&"; referentType sub) { draft with done := [] } =
      some ((), draft.past (['&'] ++ gap₁ ++ (lifetime ++ gap₂ ++ referent.text)) gap rest
        [inner, leaf, mark]) := (read_bind hmark).trans hinner
  have hchildren : (draft.node .referenceType none (['&'] ++ gap₁ ++
      (lifetime ++ gap₂ ++ referent.text)) [mark, leaf, inner]).children =
        [mark, leaf] ++ inner :: [] := rfl
  refine ⟨_, ?_, rfl, .reference rfl rfl hchildren (by simp [token_simple htoken, hsimple]) htree⟩
  rw [simpleType, read_bind (read_rest draft), hhead]
  exact read_branch h .referenceType none hbody

/-- What is read between square brackets becomes the children of an array. -/
theorem read_array_of_body (children : List Node) (h : draft.Stands text gap rest)
    (hhead : draft.rest.head? = some '[')
    (hbody : (do
      token "["
      sub (.type true)
      optional (do token ";"; sub (.expression true))
      token "]") { draft with done := [] } = some ((), draft.past text gap rest children.reverse)) :
    simpleType sub draft = some ((), draft.past text gap rest
      (draft.node .arrayType none text children :: draft.done)) := by
  have hbranch := read_branch h .arrayType none hbody
  rw [List.reverse_reverse] at hbranch
  rw [simpleType, read_bind (read_rest draft), hhead]
  exact hbranch

/-- The element type of an array is read behind the opening bracket. -/
theorem read_element {element : TypeTerm} {gap' behind : List Char}
    (hread : ReadsNode (sub (.type true)) element.text element.IsTree)
    (h : draft.Stands "[".toList gap (element.text ++ (gap' ++ behind))) (hgap : IsBlank gap')
    (hbehind : Closes behind) : ∃ mark inner next, token "[" draft = some ((), next) ∧
      sub (.type true) next = some ((), draft.past ("[".toList ++ gap ++ element.text) gap' behind
        (inner :: mark :: draft.done)) ∧ mark.IsSimple ∧ element.IsTree inner := by
  obtain ⟨mark, hmark, htoken⟩ := read_token h
  obtain ⟨inner, hinner, _, htree⟩ := hread _ _ _
    (h.next hgap hbehind.ends_path.stops (mark :: draft.done)) hbehind
  rw [past_past, past_done] at hinner
  exact ⟨mark, inner, _, hmark, hinner, token_simple htoken, htree⟩

/-- A type between square brackets is read as an array. -/
theorem read_slice {element : TypeTerm} (hwritten : element.IsWritten)
    (hread : ReadsNode (sub (.type true)) element.text element.IsTree)
    (htext : Spread [['['], element.text, [']']] text) :
    ReadsNode (simpleType sub) text (TypeTerm.array element none text).IsTree := by
  intro draft gap rest h hrest
  obtain ⟨gap₁, behind, hgap₁, _, hbehind, rfl⟩ := htext.exists_tail (List.cons_ne_nil _ _)
  obtain ⟨gap₂, last, hgap₂, _, hlast, rfl⟩ := hbehind.exists_tail (List.cons_ne_nil _ _)
  cases hlast
  have hcloses : Closes ("]".toList ++ (gap ++ rest)) := ⟨']', by decide, rfl⟩
  have hopening : ({ draft with done := [] } : Draft).Stands "[".toList gap₁
      (element.text ++ (gap₂ ++ ("]".toList ++ (gap ++ rest)))) :=
    (h.with_done []).cut (by simp) hgap₁ ((begins_type hwritten).stops _)
  have hinner : ({ draft with done := [] } : Draft).Stands ("[".toList ++ gap₁ ++ element.text) gap₂
      ("]".toList ++ (gap ++ rest)) := (h.with_done []).cut (by simp) hgap₂ hcloses.ends_path.stops
  obtain ⟨mark, inner, next, hmark, helement, hsimple, htree⟩ :=
    read_element hread hopening hgap₂ hcloses
  obtain ⟨closing, hclosing, hlast⟩ := read_token (hinner.next h.gap h.stops [inner, mark])
  rw [past_past, past_done] at hclosing
  have hchildren : [mark, inner, closing] = [mark] ++ inner :: [closing] := rfl
  have htexts : "[".toList ++ gap₁ ++ element.text ++ gap₂ ++ "]".toList =
      ['['] ++ gap₁ ++ (element.text ++ gap₂ ++ [']']) := by simp
  rw [htexts] at hclosing
  have hnone : (do token ";"; sub (.expression true)) (({ draft with done := [] } : Draft).past
      ("[".toList ++ gap₁ ++ element.text) gap₂ ("]".toList ++ (gap ++ rest)) [inner, mark]) = none :=
    read_bind_none (token_none (not_begins nofun))
  refine ⟨_, read_array_of_body [mark, inner, closing] h (h.rest_eq ▸ rfl) ?_, rfl,
    .array rfl rfl hchildren (by simp [hsimple, token_simple hlast]) htree⟩
  rw [read_bind hmark, read_bind helement, read_bind (optional_none hnone), hclosing]
  rfl

/-- Whether an expression reader reads a length in front of a closing bracket. -/
def ReadsLength (sub : SubReader) (length : List Char) : Prop :=
  ∀ (draft : Draft) gap rest, draft.Stands length gap rest → rest.head? = some ']' →
    ∃ node : Node, sub (.expression true) draft =
      some ((), draft.past length gap rest (node :: draft.done)) ∧ node.IsSimple

/-- The length of an array is read behind a semicolon. -/
theorem read_length {length front gap' gap'' behind : List Char} (hinteger : IsWholeInteger length)
    (hlength : ReadsLength sub length)
    (h : draft.Stands front gap (";".toList ++ (gap' ++ (length ++ (gap'' ++ behind)))))
    (hgap : IsBlank gap') (hgap' : IsBlank gap'') (hbehind : behind.head? = some ']')
    (done : List Node) : ∃ mark number : Node,
      Reader.optional (do token ";"; sub (.expression true))
        (draft.past front gap (";".toList ++ (gap' ++ (length ++ (gap'' ++ behind)))) done) =
        some ((), draft.past (front ++ gap ++ ";".toList ++ gap' ++ length) gap'' behind
          (number :: mark :: done)) ∧ mark.IsSimple ∧ number.IsSimple := by
  have hstops : Stops behind := (Closes.ends_path ⟨']', by decide, hbehind⟩).stops
  have hdigit : Stops (length ++ (gap'' ++ behind)) := by
    obtain ⟨c, tail, rfl, _⟩ := IsWholeInteger.begins_digit hinteger
    have hmem : c ∈ (c :: tail).take (c :: tail).length := List.take_length ▸ List.mem_cons_self ..
    exact stops_of_next (integer_chars hinteger c hmem)
  have hsign := h.next hgap hdigit done
  obtain ⟨mark, hmark, htoken⟩ := read_token hsign
  obtain ⟨number, hnumber, hsimple⟩ := hlength _ _ _ (hsign.next hgap' hstops (mark :: done)) hbehind
  rw [past_past, past_done] at hmark
  rw [past_past, past_past, past_done] at hnumber
  exact ⟨mark, number, optional_some ((read_bind hmark).trans hnumber), token_simple htoken, hsimple⟩

/-- A type and a length between square brackets are read as an array. -/
theorem read_array {element : TypeTerm} {length : List Char} (hwritten : element.IsWritten)
    (hread : ReadsNode (sub (.type true)) element.text element.IsTree)
    (hinteger : IsWholeInteger length) (hlength : ReadsLength sub length)
    (htext : Spread [['['], element.text, [';'], length, [']']] text) :
    ReadsNode (simpleType sub) text (TypeTerm.array element (some length) text).IsTree := by
  intro draft gap rest h hrest
  obtain ⟨gap₁, text₁, hgap₁, _, htext₁, rfl⟩ := htext.exists_tail (List.cons_ne_nil _ _)
  obtain ⟨gap₂, text₂, hgap₂, _, htext₂, rfl⟩ := htext₁.exists_tail (List.cons_ne_nil _ _)
  obtain ⟨gap₃, text₃, hgap₃, _, htext₃, rfl⟩ := htext₂.exists_tail (List.cons_ne_nil _ _)
  obtain ⟨gap₄, text₄, hgap₄, _, htext₄, rfl⟩ := htext₃.exists_tail (List.cons_ne_nil _ _)
  cases htext₄
  -- Five pieces, each read where the one before it ends.
  have hcloses : Closes (";".toList ++ (gap₃ ++ (length ++ (gap₄ ++ ("]".toList ++ (gap ++ rest)))))) :=
    ⟨';', by decide, rfl⟩
  have hopening : ({ draft with done := [] } : Draft).Stands "[".toList gap₁ (element.text ++ (gap₂ ++
      (";".toList ++ (gap₃ ++ (length ++ (gap₄ ++ ("]".toList ++ (gap ++ rest)))))))) :=
    (h.with_done []).cut (by simp) hgap₁ ((begins_type hwritten).stops _)
  have hinner : ({ draft with done := [] } : Draft).Stands ("[".toList ++ gap₁ ++ element.text) gap₂
      (";".toList ++ (gap₃ ++ (length ++ (gap₄ ++ ("]".toList ++ (gap ++ rest)))))) :=
    (h.with_done []).cut (by simp) hgap₂ hcloses.ends_path.stops
  obtain ⟨mark, inner, next, hmark, helement, hsimple, htree⟩ :=
    read_element hread hopening hgap₂ hcloses
  obtain ⟨between, number, hnumber, hbetween, hnumberSimple⟩ :=
    read_length hinteger hlength hinner hgap₃ hgap₄ rfl [inner, mark]
  have hfront : ({ draft with done := [] } : Draft).Stands
      ("[".toList ++ gap₁ ++ element.text ++ gap₂ ++ ";".toList ++ gap₃ ++ length) gap₄
      ("]".toList ++ (gap ++ rest)) :=
    (h.with_done []).cut (by simp) hgap₄ (Closes.ends_path ⟨']', by decide, rfl⟩).stops
  obtain ⟨closing, hclosing, hlast⟩ :=
    read_token (hfront.next h.gap h.stops [number, between, inner, mark])
  rw [past_past, past_done] at hclosing
  have hchildren : [mark, inner, between, number, closing] =
      [mark] ++ inner :: [between, number, closing] := rfl
  have htexts : "[".toList ++ gap₁ ++ element.text ++ gap₂ ++ ";".toList ++ gap₃ ++ length ++ gap₄ ++
      "]".toList = ['['] ++ gap₁ ++ (element.text ++ gap₂ ++ ([';'] ++ gap₃ ++
        (length ++ gap₄ ++ [']']))) := by simp
  rw [htexts] at hclosing
  refine ⟨_, read_array_of_body [mark, inner, between, number, closing] h (h.rest_eq ▸ rfl) ?_, rfl,
    .array rfl rfl hchildren (by simp [hsimple, hbetween, hnumberSimple, token_simple hlast]) htree⟩
  rw [read_bind hmark, read_bind helement, read_bind hnumber, hclosing]
  rfl

/-! ## Types -/

/-- No further bounds stand behind a type. -/
theorem read_type_of_simple {related : Node → Prop} (hread : ReadsNode (simpleType sub) text related)
    (bounds : Bool) : ReadsNode (Grammar.type sub bounds) text related := by
  intro draft gap rest h hrest
  obtain ⟨node, hnode, hnamed, hrelated⟩ := hread _ _ _ (h.with_done []) hrest
  refine ⟨node, read_apart h (?_ : _ = some ((), draft.past text gap rest [node])), hnamed, hrelated⟩
  rw [read_bind (read_mark _), read_bind hnode]
  split
  · have hplus : (draft.past text gap rest [node]).rest.head? ≠ some '+' := hrest.head_ne (by decide)
    exact many_none (read_bind_none (token_none (not_begins hplus)))
  · rfl

theorem reads_length {length : List Char} (hinteger : IsWholeInteger length) (depth : Nat) :
    ReadsLength (run (depth + 1)) length := by
  intro draft gap rest h hrest
  exact ⟨_, read_integer_expression hinteger h hrest, Node.simple_of_children nofun
    (List.forall_mem_singleton.2 (Node.simple_of_children nofun nofun))⟩

/-- A text that is read with its parts one level deeper is read at a depth that is no less than its
length. -/
theorem read_at_depth {related : Node → Prop} {depth : Nat} (hsome : text ≠ [])
    (hdepth : text.length ≤ depth) (bounds : Bool)
    (hread : ∀ inner, depth = inner + 1 → ReadsNode (simpleType (run inner)) text related) :
    ReadsNode (run depth (.type bounds)) text related := by
  cases depth with
  | zero => exact absurd (List.length_eq_zero_iff.1 (Nat.le_zero.1 hdepth)) hsome
  | succ inner => exact read_type_of_simple (hread inner rfl) bounds

/-- A type as it is written is read as its syntax tree in front of what ends a type. -/
theorem read_type (hwritten : type.IsWritten) (htype : type.IsType) {depth : Nat}
    (hdepth : type.text.length ≤ depth) (bounds : Bool) :
    ReadsNode (run depth (.type bounds)) type.text type.IsTree := by
  have hsome {type : TypeTerm} (h : type.IsWritten) : type.text ≠ [] := by
    obtain ⟨c, tail, htext, _⟩ := begins_type h
    exact htext ▸ List.cons_ne_nil c tail
  induction hwritten generalizing depth bounds with
  | lifetime => exact htype.elim
  | primitive h => exact read_at_depth (hsome (.primitive h)) hdepth bounds fun _ _ => read_primitive h
  | path h => exact read_at_depth (hsome (.path h)) hdepth bounds fun _ _ => read_path h
  | generic hpath hgap harguments hwritten hlist ih =>
      refine read_at_depth (hsome (.generic hpath hgap harguments hwritten hlist)) hdepth bounds
        fun inner hinner => read_generic hpath hgap hwritten hlist fun argument hargument htype => ?_
      refine ih argument hargument htype ?_ true
      have hlt := hlist.length_lt (List.mem_map_of_mem hargument)
      simp only [TypeTerm.text, List.length_append] at hdepth
      omega
  | tuple helements htypes hwritten htext ih =>
      refine read_at_depth (hsome (.tuple helements htypes hwritten htext)) hdepth bounds
        fun inner hinner => read_tuple helements hwritten (fun element helement => ?_) htext
      refine ih element helement (htypes element helement) ?_ true
      have hlt := htext.length_lt (List.mem_map_of_mem helement)
      simp only [TypeTerm.text] at hdepth
      omega
  | slice helementType helement htext ih =>
      refine read_at_depth (hsome (.slice helementType helement htext)) hdepth bounds
        fun inner hinner => read_slice helement (ih helementType ?_ true) htext
      have hlt := htext.length_lt (List.cons_ne_nil _ _) (List.mem_cons_self ..)
      simp only [TypeTerm.text] at hdepth
      omega
  | array helementType helement hlength htext ih =>
      have hlt := htext.length_lt (List.cons_ne_nil _ _) (List.mem_cons_self ..)
      have hpos := List.length_pos_of_ne_nil (hsome helement)
      refine read_at_depth (hsome (.array helementType helement hlength htext)) hdepth bounds
        fun inner hinner => ?_
      simp only [TypeTerm.text] at hdepth
      -- The length of the array takes one more level than its element.
      obtain ⟨depth, rfl⟩ := Nat.exists_eq_succ_of_ne_zero (show inner ≠ 0 by omega)
      exact read_array helement (ih helementType (by omega) true) hlength (reads_length hlength depth)
        htext
  | reference hlifetime hreferentType hreferent htext ih =>
      refine read_at_depth (hsome (.reference hlifetime hreferentType hreferent htext)) hdepth bounds
        fun inner hinner =>
          read_reference hlifetime hreferentType hreferent (ih hreferentType ?_ false) htext
      have hlt := htext.length_lt (List.cons_ne_nil _ _)
        (List.mem_cons_of_mem _ (List.mem_singleton_self _))
      simp only [TypeTerm.text] at hdepth
      omega

end Grammar

end ProgramInterface
