import TabDeck.Json.Reader
import TabDeck.Proofs.Json.Legible

namespace TabDeck.Json

mutual

def Document.tokens : Document → List Token
  | .string gs => [.text gs]
  | .array items => .arrayOpen :: (itemTokens items ++ [.arrayClose])
  | .object members => .objectOpen :: (memberTokens members ++ [.objectClose])
  | d => [.literal d]

def itemTokens : List Document → List Token
  | [] => []
  | [d] => d.tokens
  | d :: rest => d.tokens ++ .comma :: itemTokens rest

def memberTokens : List (List Glyph × Document) → List Token
  | [] => []
  | [(key, d)] => .text key :: .colon :: d.tokens
  | (key, d) :: rest => .text key :: .colon :: d.tokens ++ .comma :: memberTokens rest

end

theorem itemTokens_cons (d : Document) (items : List Document) :
    ∃ ts, itemTokens (d :: items) = d.tokens ++ ts := by
  cases items with
  | nil => exact ⟨[], (List.append_nil _).symm⟩
  | cons d' items => exact ⟨_, rfl⟩

section Words

def EndsWord (rest : Input) : Prop := ∀ c, rest.head? = some (some c) → isWordChar c = false

theorem scanWord_append {word : List Char} {rest : Input} (hw : ∀ c ∈ word, isWordChar c = true)
    (hr : EndsWord rest) : scanWord (word.map some ++ rest) = (word, rest) := by
  induction word with
  | nil =>
    match rest with
    | [] => rfl
    | none :: rest => rfl
    | some c :: rest => simp [scanWord, hr c rfl]
  | cons c word ih =>
    have hrest := ih fun d hd => hw d (List.mem_cons_of_mem c hd)
    simp [scanWord, hw c List.mem_cons_self, hrest]

theorem plain_of_isWordChar {c : Char} (h : isWordChar c = true) :
    isBlank c = false ∧ c ≠ '"' ∧ punctuation? c = none := by
  refine ⟨?_, ?_, ?_⟩
  · by_contra hb
    simp only [isBlank, Bool.not_eq_false, Bool.or_eq_true, beq_iff_eq] at hb
    rcases hb with ((rfl | rfl) | rfl) | rfl <;> exact absurd h (by decide)
  · rintro rfl
    exact absurd h (by decide)
  · unfold punctuation?
    split <;> first | rfl | exact absurd h (by decide)

theorem plain_of_punctuation {c : Char} {t : Token} (h : punctuation? c = some t) :
    isBlank c = false ∧ c ≠ '"' ∧ isWordChar c = false := by
  unfold punctuation? at h
  split at h <;> first | decide | cases h

theorem tokens?_punctuation {c : Char} {t : Token} {rest : Input} (h : punctuation? c = some t) :
    tokens? (some c :: rest) = (tokens? rest).map (t :: ·) := by
  obtain ⟨hb, hq, -⟩ := plain_of_punctuation h
  rw [tokens?]
  simp [hb, hq, h]

theorem tokens?_string {rest after : Input} {gs : List Glyph} (h : scanString rest = some (gs, after)) :
    tokens? (some '"' :: rest) = (tokens? after).map (.text gs :: ·) := by
  rw [tokens?, if_neg (by decide), if_pos rfl]
  split <;> simp_all

theorem tokens?_word {word : List Char} {d : Document} {rest : Input} (hne : word ≠ [])
    (hw : ∀ c ∈ word, isWordChar c = true) (hd : word? word = some d) (hr : EndsWord rest) :
    tokens? (word.map some ++ rest) = (tokens? rest).map (.literal d :: ·) := by
  obtain ⟨c, word, rfl⟩ := List.exists_cons_of_ne_nil hne
  have hc := hw c List.mem_cons_self
  obtain ⟨hb, hq, hp⟩ := plain_of_isWordChar hc
  have hscan := scanWord_append (fun d hd => hw d (List.mem_cons_of_mem c hd)) hr
  rw [List.map_cons, List.cons_append, tokens?]
  simp only [hb, hq, hp, hc, hscan, hd, if_true, if_false, Bool.false_eq_true, Option.bind_eq_bind, Option.bind_some]
  cases tokens? rest <;> rfl

end Words

def Cuts (text : List Char) (ts : List Token) : Prop :=
  ∀ rest, EndsWord rest → tokens? (text.map some ++ rest) = (tokens? rest).map (ts ++ ·)

namespace Cuts

variable {text after : List Char} {ts us : List Token}

theorem nil : Cuts [] [] := by
  intro rest _
  simp

theorem punctuation {c : Char} {t : Token} (h : punctuation? c = some t) (hc : Cuts text ts) :
    Cuts (c :: text) (t :: ts) := by
  intro rest hr
  rw [List.map_cons, List.cons_append, tokens?_punctuation h, hc rest hr, Option.map_map]
  rfl

theorem string {gs : List Glyph} (h : ∀ g ∈ gs, g.Legible) (hc : Cuts text ts) :
    Cuts (renderString gs ++ text) (.text gs :: ts) := by
  intro rest hr
  have hscan : scanString ((gs.flatMap Glyph.render).map some ++ some '"' :: (text.map some ++ rest)) =
      some (gs, text.map some ++ rest) := scanString_render h
  simp only [renderString, List.map_append, List.map_cons, List.append_assoc, List.cons_append,
    List.nil_append]
  rw [tokens?_string hscan, hc rest hr, Option.map_map]
  rfl

theorem word {word : List Char} {d : Document} (hne : word ≠ []) (hw : ∀ c ∈ word, isWordChar c = true)
    (hd : word? word = some d) : Cuts word [.literal d] := fun _ hr => tokens?_word hne hw hd hr

theorem append {c : Char} {t : Token} (ht : Cuts text ts) (h : punctuation? c = some t) (ha : Cuts after us) :
    Cuts (text ++ c :: after) (ts ++ t :: us) := by
  intro rest hr
  have hend : EndsWord ((c :: after).map some ++ rest) := by
    rintro d ⟨⟩
    exact (plain_of_punctuation h).2.2
  rw [List.map_append, List.append_assoc, ht _ hend, ha.punctuation h rest hr, Option.map_map]
  congr 1
  funext vs
  exact (List.append_assoc ts (t :: us) vs).symm

theorem items {items : List Document} (h : ∀ d ∈ items, Cuts d.render d.tokens) :
    Cuts (renderItems items) (itemTokens items) := by
  induction items with
  | nil => exact nil
  | cons d items ih =>
    have hd := h d List.mem_cons_self
    cases items with
    | nil => exact hd
    | cons d' items => exact hd.append rfl (ih fun e he => h e (List.mem_cons_of_mem d he))

theorem members {members : List (List Glyph × Document)} (hkeys : ∀ m ∈ members, ∀ g ∈ m.1, g.Legible)
    (h : ∀ m ∈ members, Cuts m.2.render m.2.tokens) : Cuts (renderMembers members) (memberTokens members) := by
  induction members with
  | nil => exact nil
  | cons m members ih =>
    obtain ⟨key, d⟩ := m
    have hm : Cuts (renderString key ++ ':' :: d.render) (.text key :: .colon :: d.tokens) :=
      ((h _ List.mem_cons_self).punctuation rfl).string (hkeys _ List.mem_cons_self)
    cases members with
    | nil => exact hm
    | cons m' members =>
      exact hm.append rfl (ih (fun e he => hkeys e (List.mem_cons_of_mem _ he))
        fun e he => h e (List.mem_cons_of_mem _ he))

theorem document {d : Document} (h : d.Legible) : Cuts d.render d.tokens := by
  induction h with
  | null => exact word (by decide) (List.all_eq_true.mp rfl) rfl
  | boolean b =>
    cases b with
    | false => exact word (by decide) (List.all_eq_true.mp rfl) rfl
    | true => exact word (by decide) (List.all_eq_true.mp rfl) rfl
  | number text hword hnumeral =>
    refine word ?_ hword (word?_number hnumeral)
    rintro rfl
    cases hnumeral
  | string gs h =>
    have hs := Cuts.nil.string h
    rwa [List.append_nil] at hs
  | array items _ ih => exact (append (.items ih) rfl .nil).punctuation rfl
  | object members hkeys _ ih => exact (append (.members hkeys ih) rfl .nil).punctuation rfl

end Cuts

theorem tokens?_render {d : Document} (h : d.Legible) : tokens? (d.render.map some) = some d.tokens := by
  have hcut := Cuts.document h [] nofun
  rw [List.append_nil, tokens?, Option.map_some, List.append_nil] at hcut
  exact hcut

def Leads (ts : List Token) (e e' : Expecting) : Prop := ts.foldlM Expecting.next? e = some e'

namespace Leads

variable {e e' e'' : Expecting} {ts us : List Token} {t : Token}

theorem append (h : Leads ts e e') (h' : Leads us e' e'') : Leads (ts ++ us) e e'' := by
  rw [Leads, List.foldlM_append, h]
  exact h'

theorem cons (h : e.next? t = some e') (h' : Leads ts e' e'') : Leads (t :: ts) e e'' := by
  rw [Leads, List.foldlM_cons, h]
  exact h'

theorem single (h : e.next? t = some e') : Leads [t] e e' := cons h rfl

theorem first {d : Document} {fs : List Frame} (h : Leads (d.tokens ++ ts) (.value (.items [] :: fs)) e) :
    Leads (d.tokens ++ ts) (.valueOrClose fs) e := by
  cases d <;> exact h

theorem items {items : List Document} (h : ∀ d ∈ items, ∀ fs, Leads d.tokens (.value fs) (.after d fs))
    (hne : items ≠ []) (done : List Document) (fs : List Frame) :
    Leads (itemTokens items ++ [.arrayClose]) (.value (.items done :: fs))
      (.after (.array (done.reverse ++ items)) fs) := by
  induction items generalizing done with
  | nil => exact absurd rfl hne
  | cons d items ih =>
    have hd := h d List.mem_cons_self
    cases items with
    | nil =>
      refine (hd _).append (single ?_)
      rw [Expecting.next?, List.reverse_cons]
    | cons d' items =>
      have hitems := ih (fun e he => h e (List.mem_cons_of_mem d he)) nofun (d :: done)
      rw [List.reverse_cons, List.append_assoc] at hitems
      rw [itemTokens, List.append_assoc]
      · exact (hd _).append (hitems.cons rfl)
      · nofun

theorem members {members : List (List Glyph × Document)}
    (h : ∀ m ∈ members, ∀ fs, Leads m.2.tokens (.value fs) (.after m.2 fs)) (hne : members ≠ [])
    (done : List (List Glyph × Document)) (fs : List Frame) :
    Leads (memberTokens members ++ [.objectClose]) (.key done fs) (.after (.object (done.reverse ++ members)) fs) := by
  induction members generalizing done with
  | nil => exact absurd rfl hne
  | cons m members ih =>
    obtain ⟨key, d⟩ := m
    have hd : Leads (.text key :: .colon :: d.tokens) (.key done fs) (.after d (.members done key :: fs)) :=
      ((h _ List.mem_cons_self _).cons rfl).cons rfl
    cases members with
    | nil =>
      refine hd.append (single ?_)
      rw [Expecting.next?, List.reverse_cons]
    | cons m' members =>
      have hmembers := ih (fun e he => h e (List.mem_cons_of_mem _ he)) nofun ((key, d) :: done)
      rw [List.reverse_cons, List.append_assoc] at hmembers
      rw [memberTokens, List.append_assoc]
      · exact hd.append (hmembers.cons rfl)
      · nofun

theorem document (d : Document) (fs : List Frame) : Leads d.tokens (.value fs) (.after d fs) := by
  induction d generalizing fs with
  | null => rfl
  | boolean b => rfl
  | number text => rfl
  | string gs => rfl
  | array items ih =>
    cases items with
    | nil => rfl
    | cons d items =>
      have hitems := Leads.items ih nofun [] fs
      obtain ⟨ts, hts⟩ := itemTokens_cons d items
      rw [hts, List.append_assoc] at hitems
      rw [Document.tokens, hts, List.append_assoc]
      exact hitems.first.cons rfl
  | object members ih =>
    cases members with
    | nil => rfl
    | cons m members =>
      have hmembers := Leads.members ih nofun [] fs
      -- a key is taken in the same way whether or not the object may close
      cases members <;> exact cons rfl hmembers

end Leads

theorem ofTokens?_tokens (d : Document) : Document.ofTokens? d.tokens = some d := by
  have h := Leads.document d []
  rw [Leads] at h
  rw [Document.ofTokens?, h]

theorem read?_render {d : Document} (h : d.Legible) : Document.read? (d.render.map some) = some d := by
  rw [Document.read?, tokens?_render h, Option.bind_eq_bind, Option.bind_some, ofTokens?_tokens]

theorem read?_text {d : Document} (h : d.Legible) : Document.read? (.ofString d.text) = some d := by
  rw [Input.ofString, Document.text, String.toList_ofList]
  exact read?_render h

section Bytes

theorem utf8DecodeChar?_append (before after : List Char) (c : Char) :
    (before ++ c :: after).utf8Encode.utf8DecodeChar? before.utf8Encode.size = some c := by
  rw [ByteArray.utf8DecodeChar?_eq_utf8DecodeChar?_extract, List.utf8Encode_append,
    ByteArray.extract_append_eq_right rfl ByteArray.size_append]
  exact List.utf8DecodeChar?_utf8Encode_cons

theorem size_utf8Encode_concat (before : List Char) (c : Char) :
    (before ++ [c]).utf8Encode.size = before.utf8Encode.size + c.utf8Size := by
  rw [List.utf8Encode_append, ByteArray.size_append, List.utf8Encode_singleton, List.size_toByteArray,
    String.length_utf8EncodeChar]

theorem ofBytes_append (before after : List Char) :
    Input.ofBytes (before ++ after).utf8Encode before.utf8Encode.size = after.map some := by
  induction after generalizing before with
  | nil =>
    rw [List.append_nil, Input.ofBytes, if_neg (Nat.lt_irrefl _)]
    rfl
  | cons c after ih =>
    have hdecode := utf8DecodeChar?_append before after c
    have hlt := ByteArray.lt_size_of_isSome_utf8DecodeChar? (Option.isSome_iff_exists.mpr ⟨c, hdecode⟩)
    have hrest := ih (before ++ [c])
    rw [List.append_assoc, size_utf8Encode_concat] at hrest
    rw [Input.ofBytes, if_pos hlt, hdecode]
    exact congrArg (some c :: ·) hrest

theorem ofBytes_toUTF8 (s : String) : Input.ofBytes s.toUTF8 0 = .ofString s := by
  have h := ofBytes_append [] s.toList
  rw [List.nil_append, String.utf8Encode_toList, List.utf8Encode_nil, ByteArray.size_empty] at h
  exact h

end Bytes

end TabDeck.Json
