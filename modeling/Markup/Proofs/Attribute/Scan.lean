import Markup.Attribute
import Markup.Proofs.Entries

/-!
# Reading markup back

`AttributeMap.scan?_text`: a scan of the text of a map finds its attributes again, each with the
text that stands between its quotation marks. `AttributeMap.listing` says which attributes these
are. The names must be names (`IsName`) and the texts written as they stand free of quotation
marks; JSON texts may hold anything.

An attribute that is `Readable` is scanned off the front of a text whatever follows it
(`scanOne?_write`), and so is a list of them (`scan?_join`); the rest is that the attributes of a
map are readable.
-/

namespace Markup

/-- The mark on both sides of a value. -/
def Quoted.mark : Quoted → Char
  | double _ => '"'
  | single _ => '\''

/-- The text between the marks. -/
def Quoted.text : Quoted → String
  | double t | single t => t

namespace Attribute

/-! ### One attribute -/

/-- A name that a scan reads as one. -/
def IsName (name : String) : Prop :=
  name ≠ "" ∧ ∀ c ∈ name.toList, c ≠ ' ' ∧ c ≠ '=' ∧ c ≠ '"' ∧ c ≠ '\''

/-- The text does not hold the mark that ends it. -/
def Closes (q : Quoted) : Prop := q.mark ∉ q.text.toList

structure Readable (a : Attribute) : Prop where
  name : IsName a.name
  value : ∀ q, a.value = some q → Closes q

theorem isName_iff {name : String} :
    IsName name ↔ name ≠ "" ∧ name.toList.all isNameChar = true := by
  simp [IsName, isNameChar, and_assoc]

instance : DecidablePred IsName := fun _ => decidable_of_iff _ isName_iff.symm

theorem until?_append {stop : Char} {cs : List Char} (h : stop ∉ cs) (rest : List Char) :
    until? stop (cs ++ stop :: rest) = some (cs, rest) := by
  induction cs with
  | nil => simp [until?]
  | cons c cs ih =>
    rw [List.mem_cons, not_or] at h
    rw [List.cons_append, until?, if_neg (Ne.symm h.1), ih h.2]
    rfl

/-- What can follow an attribute: nothing, or the space of the next one. -/
def Follows (rest : List Char) : Prop := ∀ c ∈ rest.head?, c = ' '

/-- The name at the front, where what follows it is no part of it. -/
theorem takeWhile_name {name : String} (h : IsName name) {tail : List Char}
    (ht : ∀ c ∈ tail.head?, isNameChar c = false) :
    (name.toList ++ tail).takeWhile isNameChar = name.toList ∧
      (name.toList ++ tail).dropWhile isNameChar = tail := by
  have hn := List.all_eq_true.mp (isName_iff.mp h).2
  rw [List.takeWhile_append_of_pos hn, List.dropWhile_append_of_pos hn]
  cases tail with
  | nil => simp
  | cons c tail =>
    have hc : isNameChar c = false := ht c rfl
    simp [hc]

theorem toList_write (a : Attribute) :
    a.write.toList = ' ' :: (a.name.toList ++
      match a.value with
      | none => []
      | some q => '=' :: q.mark :: (q.text.toList ++ [q.mark])) := by
  obtain ⟨name, value⟩ := a
  rcases value with _ | t | t <;> simp [write, Quoted.mark, Quoted.text]

/-- A bare name ends where the text ends or the next attribute begins. -/
theorem scanOne?_bare {name : String} (h : IsName name) {rest : List Char} (hr : Follows rest) :
    scanOne? (' ' :: (name.toList ++ rest)) = some (⟨name, none⟩, rest) := by
  have hr' : ∀ c ∈ rest.head?, isNameChar c = false := fun c hc => by rw [hr c hc]; rfl
  obtain ⟨h1, h2⟩ := takeWhile_name h hr'
  rw [scanOne?]
  simp only [h1, h2, String.ofList_toList, if_neg h.1]
  cases rest with
  | nil => rfl
  | cons c cs =>
    rw [hr c rfl]
    rfl

theorem scanOne?_quoted {name : String} (h : IsName name) {q : Quoted} (hq : Closes q)
    (rest : List Char) :
    scanOne? (' ' :: (name.toList ++ '=' :: q.mark :: (q.text.toList ++ q.mark :: rest))) =
      some (⟨name, some q⟩, rest) := by
  have hr : ∀ c ∈ ('=' :: q.mark :: (q.text.toList ++ q.mark :: rest)).head?,
      isNameChar c = false := fun c hc => by cases hc; rfl
  obtain ⟨h1, h2⟩ := takeWhile_name h hr
  have hu := until?_append hq rest
  rw [scanOne?]
  simp only [h1, h2, String.ofList_toList, if_neg h.1]
  cases q with
  | double t =>
    simp only [Quoted.mark, Quoted.text] at hu ⊢
    rw [hu, Option.map_some, String.ofList_toList]
  | single t =>
    simp only [Quoted.mark, Quoted.text] at hu ⊢
    rw [hu, Option.map_some, String.ofList_toList]

theorem scanOne?_write {a : Attribute} (ha : a.Readable) {rest : List Char} (hr : Follows rest) :
    scanOne? (a.write.toList ++ rest) = some (a, rest) := by
  obtain ⟨name, value⟩ := a
  rw [toList_write]
  cases value with
  | none => simpa using scanOne?_bare ha.name hr
  | some q => simpa using scanOne?_quoted ha.name (ha.value q rfl) rest

/-! ### A list of attributes -/

theorem write_eq_cons (a : Attribute) : ∃ cs, a.write.toList = ' ' :: cs :=
  ⟨_, toList_write a⟩

theorem follows_flatMap (as : List Attribute) : Follows (as.flatMap fun a => a.write.toList) := by
  intro c hc
  cases as with
  | nil => cases hc
  | cons a as =>
    obtain ⟨cs, h⟩ := write_eq_cons a
    rw [List.flatMap_cons, h] at hc
    cases hc
    rfl

theorem scanUpTo?_flatMap {as : List Attribute} (ha : ∀ a ∈ as, a.Readable) {limit : Nat}
    (hl : as.length ≤ limit) :
    scanUpTo? limit (as.flatMap fun a => a.write.toList) = some as := by
  induction as generalizing limit with
  | nil => simp [scanUpTo?]
  | cons a as ih =>
    obtain ⟨limit, rfl⟩ : ∃ n, limit = n + 1 := ⟨limit - 1, by simp at hl; omega⟩
    have ih' := ih (fun b hb => ha b (List.mem_cons_of_mem _ hb)) (Nat.le_of_succ_le_succ hl)
    have hs := scanOne?_write (ha a List.mem_cons_self) (follows_flatMap as)
    obtain ⟨cs, h⟩ := write_eq_cons a
    rw [List.flatMap_cons]
    rw [h, List.cons_append] at hs ⊢
    rw [scanUpTo?, hs]
    · show (scanUpTo? limit _).bind _ = _
      rw [ih']
      rfl
    · exact List.cons_ne_nil _ _

theorem length_le_length_flatMap (as : List Attribute) :
    as.length ≤ (as.flatMap fun a => a.write.toList).length := by
  induction as with
  | nil => exact Nat.le_refl _
  | cons a as ih =>
    obtain ⟨cs, h⟩ := write_eq_cons a
    rw [List.flatMap_cons, List.length_append, h, List.length_cons, List.length_cons]
    omega

theorem scan?_join {as : List Attribute} (ha : ∀ a ∈ as, a.Readable) :
    scan? (String.join (as.map write)) = some as := by
  have e : (String.join (as.map write)).toList = as.flatMap fun a => a.write.toList := by
    rw [String.toList_join, List.flatMap_map]
  rw [scan?, e]
  exact scanUpTo?_flatMap ha (length_le_length_flatMap as)

end Attribute

/-! ### The attributes of a map -/

namespace AttributeMap

/-- The text of an entry that is written as it stands, if there is one: the class text, the style
text, and any other text, also one that an object stands for. -/
def rawText? (key : String) (value : Value) : Option String :=
  if key = "class" then some value.classText
  else if key = "style" then some value.styleText
  else (Attribute.projected value).text?

/-- The class attribute, if the class text is not empty. -/
def classAttribute (m : AttributeMap) : List Attribute :=
  match m.get? "class" with
  | some v => if v.classText = "" then [] else [⟨"class", some (.double v.classText)⟩]
  | none => []

theorem mem_classAttribute {m : AttributeMap} {a : Attribute} (h : a ∈ m.classAttribute) :
    ∃ v, m.get? "class" = some v ∧ a = ⟨"class", some (.double v.classText)⟩ := by
  unfold classAttribute at h
  split at h
  · next v hv =>
    split at h
    · cases h
    · exact ⟨v, hv, List.mem_singleton.mp h⟩
  · cases h

/-- Whether an entry other than the class leaves no trace: an absent or `false` value, or a style
without text. -/
def isOmitted (key : String) (value : Value) : Bool :=
  if key = "style" then value.styleText = ""
  else match value with
    | .null | .bool false => true
    | _ => false

/-- A value between its marks: a text as it is, also one that an object stands for, and any other
value as its JSON text, between apostrophes if that holds a quotation mark. -/
def delimited (value : Value) : Quoted :=
  match (Attribute.projected value).text? with
  | some s => .double s
  | none =>
    let json := (Attribute.projected value).jsonText
    if '"' ∈ json.toList then .single (Attribute.hideApostrophes json) else .double json

/-- The value of the attribute for an entry other than the class. -/
def listedValue (key : String) (value : Value) (terse : Bool) : Option Quoted :=
  if key = "style" then some (.double value.styleText)
  else match value with
    | .bool true => if terse then none else some (.double key)
    | v => some (delimited v)

/-- The attributes that the text of a map shows: the class first, then each of the other entries
that is not omitted, in their order. -/
def listing (m : AttributeMap) (terse : Bool) : List Attribute :=
  m.classAttribute ++
    ((m.entries.filter fun e => e.1 ≠ "class").filter fun e => !isOmitted e.1 e.2).map
      fun e => ⟨e.1, listedValue e.1 e.2 terse⟩

theorem of?_text {key : String} (hk : key = "class" ∨ key = "style") (s : String) (terse : Bool) :
    Attribute.of? key (.text s) false terse =
      if s = "" then none else some ⟨key, some (.double s)⟩ := by
  have hk' : (key == "class" || key == "style") = true := by simpa using hk
  by_cases hs : s = ""
  · simp [Attribute.of?, Value.isTruthy, hk', hs]
  · simp [Attribute.of?, Value.isTruthy, hs, Attribute.quoted, Attribute.projected]

theorem quoted_projected (v : Value) :
    Attribute.quoted (Attribute.projected v) false = delimited v := by
  unfold delimited
  cases Attribute.projected v <;> simp [Attribute.quoted, Value.text?]

/-- The attribute written for an entry. -/
def attribute? (terse : Bool) (e : String × Value) : Option Attribute :=
  Attribute.of? e.1 (shown e.1 e.2) false terse

theorem attribute?_of_ne {e : String × Value} (hc : e.1 ≠ "class") (terse : Bool) :
    attribute? terse e =
      if isOmitted e.1 e.2 then none else some ⟨e.1, listedValue e.1 e.2 terse⟩ := by
  obtain ⟨key, v⟩ := e
  unfold attribute? shown isOmitted listedValue
  by_cases hs : key = "style"
  · simp [hs, of?_text]
  · cases v with
    | null => simp [hc, hs, Attribute.of?]
    | bool b => cases b <;> simp [hc, hs, Attribute.of?]
    | _ => simp [hc, hs, Attribute.of?, quoted_projected]

theorem attributes_class (m : AttributeMap) (terse : Bool) :
    (m.entries.filter (·.1 == "class")).filterMap (attribute? terse) = m.classAttribute := by
  have hget : m.entries.get? "class" = m.get? "class" := rfl
  rw [Entries.filter_key m.nodup, hget, classAttribute]
  cases m.get? "class" with
  | none => rfl
  | some v =>
    have e : attribute? terse ("class", v) =
        if v.classText = "" then none else some ⟨"class", some (.double v.classText)⟩ :=
      of?_text (.inl rfl) v.classText terse
    by_cases h : v.classText = "" <;> simp [e, h]

theorem attributes_rest {es : Entries Value} (h : ∀ e ∈ es, e.1 ≠ "class") (terse : Bool) :
    es.filterMap (attribute? terse) =
      (es.filter fun e => !isOmitted e.1 e.2).map
        fun e => ⟨e.1, listedValue e.1 e.2 terse⟩ := by
  induction es with
  | nil => rfl
  | cons e es ih =>
    have he := attribute?_of_ne (h e List.mem_cons_self) terse
    have ih' := ih fun e he => h e (List.mem_cons_of_mem _ he)
    cases ho : isOmitted e.1 e.2 with
    | true =>
      rw [ho, if_pos rfl] at he
      rw [List.filterMap_cons_none he, List.filter_cons_of_neg (by simp [ho]), ih']
    | false =>
      rw [ho, if_neg Bool.false_ne_true] at he
      rw [List.filterMap_cons_some he, List.filter_cons_of_pos (by simp [ho]), ih', List.map_cons]

theorem attributes_eq_listing (m : AttributeMap) (terse : Bool) :
    m.attributes terse = m.listing terse := by
  have hf : m.entries.filter (·.1 != "class") = m.entries.filter fun e => e.1 ≠ "class" := by
    refine List.filter_congr fun e _ => ?_
    by_cases h : e.1 = "class" <;> simp [h]
  have hc : ∀ e ∈ m.entries.filter (fun e => e.1 ≠ "class"), e.1 ≠ "class" := by
    intro e he
    simpa using (List.mem_filter.mp he).2
  show (_ ++ _ : Entries Value).filterMap (attribute? terse) = _
  rw [List.filterMap_append, attributes_class, hf, attributes_rest hc, listing]

/-! ### Readability -/

theorem closes_hideApostrophes (s : String) :
    Attribute.Closes (.single (Attribute.hideApostrophes s)) := by
  show '\'' ∉ (Attribute.hideApostrophes s).toList
  rw [Attribute.hideApostrophes, String.toList_ofList, List.mem_flatMap]
  rintro ⟨c, -, hc⟩
  by_cases h : c = '\''
  · rw [if_pos h] at hc
    revert hc
    decide
  · rw [if_neg h, List.mem_singleton] at hc
    exact h hc.symm

theorem closes_delimited {v : Value}
    (h : ∀ s, (Attribute.projected v).text? = some s → '"' ∉ s.toList) :
    Attribute.Closes (delimited v) := by
  unfold delimited
  split
  · next s hs => exact h s hs
  · dsimp only
    split
    · exact closes_hideApostrophes _
    · assumption

theorem closes_listedValue {key : String} (hc : key ≠ "class") (hn : Attribute.IsName key)
    {v : Value} (h : ∀ s, rawText? key v = some s → '"' ∉ s.toList) {terse : Bool} {q : Quoted}
    (hq : listedValue key v terse = some q) : Attribute.Closes q := by
  unfold rawText? at h
  unfold listedValue at hq
  rw [if_neg hc] at h
  by_cases hs : key = "style"
  · rw [if_pos hs] at h hq
    cases hq
    exact h _ rfl
  · rw [if_neg hs] at h hq
    split at hq
    · -- `true` stands under its own name, which holds no quotation mark
      split at hq
      · cases hq
      · cases hq
        exact fun hm => (hn.2 _ hm).2.2.1 rfl
    · cases hq
      exact closes_delimited h

/-- The hypotheses of a scan: names that are names, and no quotation mark in a text that is
written as it stands. -/
structure Scannable (m : AttributeMap) : Prop where
  names : ∀ key ∈ m.keys, Attribute.IsName key
  texts : ∀ e ∈ m.entries, ∀ s, rawText? e.1 e.2 = some s → '"' ∉ s.toList

theorem readable_listing {m : AttributeMap} (hm : m.Scannable) (terse : Bool) :
    ∀ a ∈ m.listing terse, a.Readable := by
  intro a ha
  have hkey : ∀ e ∈ m.entries, Attribute.IsName e.1 := fun e he =>
    hm.names e.1 (List.mem_map_of_mem (f := Prod.fst) he)
  rcases List.mem_append.mp ha with ha | ha
  · obtain ⟨v, hv, rfl⟩ := mem_classAttribute ha
    have he : ("class", v) ∈ m.entries := Entries.mem_of_get? hv
    refine ⟨hkey _ he, fun q hq => ?_⟩
    cases hq
    exact hm.texts _ he _ rfl
  · obtain ⟨e, he, rfl⟩ := List.mem_map.mp ha
    obtain ⟨he, -⟩ := List.mem_filter.mp he
    obtain ⟨he, hc⟩ := List.mem_filter.mp he
    have hc' : e.1 ≠ "class" := by simpa using hc
    exact ⟨hkey e he, fun q hq => closes_listedValue hc' (hkey e he) (hm.texts e he) hq⟩

theorem nodup_names_listing (m : AttributeMap) (terse : Bool) :
    ((m.listing terse).map Attribute.name).Nodup := by
  rw [listing, List.map_append, List.map_map, List.nodup_append]
  refine ⟨?_, ?_, ?_⟩
  · unfold classAttribute
    split
    · split <;> simp
    · simp
  · have hs := (List.filter_sublist (p := fun e => !isOmitted e.1 e.2)).trans
      (List.filter_sublist (p := fun e => decide (e.1 ≠ "class")) (l := m.entries))
    exact m.nodup.sublist (hs.map Prod.fst)
  · intro a ha b hb hab
    have hclass : a = "class" := by
      obtain ⟨x, hx, rfl⟩ := List.mem_map.mp ha
      obtain ⟨_, _, rfl⟩ := mem_classAttribute hx
      rfl
    obtain ⟨e, he, rfl⟩ := List.mem_map.mp hb
    have hne : e.1 ≠ "class" := by simpa using (List.mem_filter.mp (List.mem_filter.mp he).1).2
    exact hne (hab.symm.trans hclass)

/-- A scan of the text of a map consumes all of it and finds the listed attributes, no name
twice. -/
theorem scan?_text {m : AttributeMap} (hm : m.Scannable) (terse : Bool) :
    Attribute.scan? (m.text terse) = some (m.listing terse) ∧
      ((m.listing terse).map Attribute.name).Nodup := by
  refine ⟨?_, nodup_names_listing m terse⟩
  rw [text, attributes_eq_listing]
  exact Attribute.scan?_join (readable_listing hm terse)

/-- A tag whose values hold both kinds of quotation marks. -/
def quotedTag : AttributeMap :=
  .ofList [("title", .text "it's"), ("lang", .null), ("hidden", .bool true),
    ("class", .list [.text "a", .bool false, .text "b"]), ("style", .map [("top", .bool true)]),
    ("data-user", .map [("name", .text "o'neil")])]

theorem scannable_quotedTag : quotedTag.Scannable := by
  have hkeys : quotedTag.keys = ["title", "lang", "hidden", "class", "style", "data-user"] := rfl
  have hentries : quotedTag.entries = [("title", .text "it's"), ("lang", .null),
      ("hidden", .bool true), ("class", .list [.text "a", .bool false, .text "b"]),
      ("style", .map [("top", .bool true)]), ("data-user", .map [("name", .text "o'neil")])] := rfl
  constructor
  · intro key h
    simp only [hkeys, List.mem_cons, List.not_mem_nil, or_false] at h
    rcases h with rfl | rfl | rfl | rfl | rfl | rfl <;> decide
  · intro e h s hs
    simp only [hentries, List.mem_cons, List.not_mem_nil, or_false] at h
    rcases h with rfl | rfl | rfl | rfl | rfl | rfl <;>
      simp [rawText?, Attribute.projected, Value.text?] at hs <;> subst hs <;> decide

theorem scan?_text_quotedTag :
    quotedTag.Scannable ∧
      quotedTag.text true = " class=\"a b\" title=\"it's\" hidden style=\"top:true;\"" ++
        " data-user='\x7b\"name\":\"o&#39;neil\"\x7d'" ∧
      Attribute.scan? (quotedTag.text true) = some [⟨"class", some (.double "a b")⟩,
        ⟨"title", some (.double "it's")⟩, ⟨"hidden", none⟩, ⟨"style", some (.double "top:true;")⟩,
        ⟨"data-user", some (.single "\x7b\"name\":\"o&#39;neil\"\x7d")⟩] := by
  have h := (scan?_text scannable_quotedTag true).1
  refine ⟨scannable_quotedTag, by decide, h.trans (congrArg some ?_)⟩
  decide

end AttributeMap

end Markup
