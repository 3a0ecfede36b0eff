import Mathlib.Data.List.Perm.Basic
import Markup.Proofs.Settings.Shape
import Markup.Proofs.Settings.Spelling
import Markup.Proofs.Toml.Documents
import Markup.Settings.Load

/-!
# Settings that are loaded

Loading the settings of a document within the limits of the reader succeeds exactly if the document has
the shape, and gives the default settings with those of the document put in their places, one after
another in any order (`ofText_eq_ok_iff_fits`). Documents with the same contents give the same settings
(`Alike`), and so do documents that say the same by headers, keys with dots or tables in braces
(`SayAlike`). The limits do exclude documents of the shape (`exists_fits_not_loaded`).
-/

namespace Markup.Settings

open Toml Grammar

/-! ### Changes -/

/-- The settings that are given, as changes. -/
def Given.changes (g : Given) : List Setting :=
  (g.terse.map Setting.terse).toList ++ (g.contextLines.map Setting.contextLines).toList ++
    (g.readSources.map Setting.readSources).toList ++
    (g.defaultFilename.map Setting.defaultFilename).toList

/-- The change is one of those that are given. -/
def Given.Has (g : Given) : Setting → Prop
  | .terse b => g.terse = some b
  | .contextLines n => g.contextLines = some n
  | .readSources b => g.readSources = some b
  | .defaultFilename s => g.defaultFilename = some s

theorem Given.mem_changes {g : Given} {change : Setting} : change ∈ g.changes ↔ g.Has change := by
  cases change <;> simp [changes, Has]

theorem Given.foldl_changes (g : Given) : g.changes.foldl set {} = g.settings := by
  obtain ⟨terse, contextLines, readSources, defaultFilename⟩ := g
  cases terse <;> cases contextLines <;> cases readSources <;> cases defaultFilename <;> rfl

/-- Two changes that are given are not made at one place, unless they are the same. -/
theorem Given.set_set_comm {g : Given} {c c' : Setting} (h : g.Has c) (h' : g.Has c')
    (s : Settings) : (s.set c).set c' = (s.set c').set c := by
  cases c <;> cases c' <;> first | rfl | (cases h.symm.trans h'; rfl)

theorem Given.foldl_of_perm {g : Given} {changes : List Setting} (h : changes.Perm g.changes) :
    changes.foldl set {} = g.settings := by
  rw [← g.foldl_changes]
  refine h.foldl_eq' (fun c hc c' hc' s => ?_) _
  exact set_set_comm (mem_changes.mp (h.mem_iff.mp hc)) (mem_changes.mp (h.mem_iff.mp hc')) s

/-! ### One setting in two spellings -/

/-- The entry that sets `terse` to `false`. -/
def plainSyntax (inner value : Span) : List (List Key × Key × Item) :=
  [([], ⟨"terse", inner⟩, .boolean value false)]

/-- The key of the setting has a dot. -/
def isDotted : Option (List Statement × Cursor) → Bool
  | some ([.assign [key] key' (.boolean _ b)], _) => key.name == "render" && key'.name == "terse" && !b
  | _ => false

/-- The setting has a header. -/
def isHeaded : Option (List Statement × Cursor) → Bool
  | some ([.header [] key _, .assign [] key' (.boolean _ b)], _) =>
    key.name == "render" && key'.name == "terse" && !b
  | _ => false

theorem eq_of_isDotted {found : Option (List Statement × Cursor)} (h : isDotted found) :
    ∃ outer inner value s', found =
      some (assigns ([] ++ [⟨"render", outer⟩]) (plainSyntax inner value), s') := by
  unfold isDotted at h
  split at h
  · next key key' value b s' =>
    obtain ⟨name, outer⟩ := key
    obtain ⟨name', inner⟩ := key'
    simp only [Bool.and_eq_true, beq_iff_eq, Bool.not_eq_true'] at h
    obtain ⟨⟨rfl, rfl⟩, rfl⟩ := h
    exact ⟨outer, inner, value, s', rfl⟩
  · cases h

theorem eq_of_isHeaded {found : Option (List Statement × Cursor)} (h : isHeaded found) :
    ∃ outer span inner value s', found =
      some (.header [] ⟨"render", outer⟩ span :: assigns [] (plainSyntax inner value), s') := by
  unfold isHeaded at h
  split at h
  · next key span key' value b s' =>
    obtain ⟨name, outer⟩ := key
    obtain ⟨name', inner⟩ := key'
    simp only [Bool.and_eq_true, beq_iff_eq, Bool.not_eq_true'] at h
    obtain ⟨⟨rfl, rfl⟩, rfl⟩ := h
    exact ⟨outer, span, inner, value, s', rfl⟩
  · cases h

theorem sayAlike_plainSyntax (outer outer' span inner inner' value value' : Span) :
    SayAlike (Told [] (assigns ([] ++ [⟨"render", outer⟩]) (plainSyntax inner value)))
      (Told [] (.header [] ⟨"render", outer'⟩ span :: assigns [] (plainSyntax inner' value'))) := by
  have hplain (inner value : Span) : ∀ e ∈ plainSyntax inner value, e.2.2.Holds.Plain := by
    simp only [plainSyntax, List.forall_mem_singleton]
    exact Item.plain_of_leaf rfl nofun
  have hsame (inner inner' value value' : Span) : ∀ e ∈ plainSyntax inner value,
      ∃ e' ∈ plainSyntax inner' value', SameEntry e e' := by
    simp only [plainSyntax, List.forall_mem_singleton]
    exact ⟨_, List.mem_singleton_self _, rfl, rfl, .boolean⟩
  have hnames : ([] ++ [⟨"render", outer⟩] : List Key).map Key.name =
      ([] ++ [⟨"render", outer'⟩] : List Key).map Key.name := rfl
  exact sayAlike_of_spelling (hplain inner value) (hplain inner' value')
    ⟨hsame _ _ _ _, hsame _ _ _ _⟩ hnames (.dotted (List.cons_ne_nil _ _)) .header

theorem fits_plainSyntax (shape : Shape) (outer inner value : Span) :
    Fits [(⟨"render", outer⟩, .table shape [(⟨"terse", inner⟩, .boolean value false)])]
      { terse := some false } := by
  have hrender : FitsRender (.table shape [(⟨"terse", inner⟩, .boolean value false)])
      (some false) := .inl ⟨shape, _, rfl, by simp, false, ⟨value, rfl⟩, rfl⟩
  exact ⟨by simp, hrender, rfl, rfl, rfl⟩

/-! ### A document beyond the limits -/

/-- A text with too large a number, from a place on. -/
def tooLarge (n : Nat) : Cursor := ⟨n, "render = [true, 1e400]".toList.drop n⟩

theorem word_tooLarge (cs : List Char) (n : Nat)
    (h : cs <+: "render = [true, 1e400]".toList.drop n ∧ Text.byteSize cs = cs.length) :
    Word cs (tooLarge n) () (tooLarge (n + cs.length)) := by
  obtain ⟨⟨rest, hrest⟩, hsize⟩ := h
  refine ⟨?_, congrArg (n + ·) hsize.symm⟩
  show List.drop n _ = cs ++ List.drop (n + cs.length) _
  rw [← List.drop_drop, ← hrest, List.drop_left]

theorem many_of_word {kind : Char → Prop} {cs : List Char} {s s' : Cursor} (h : Word cs s () s')
    (hkind : ∀ c ∈ cs, kind c) : Many (Single kind) s cs s' := by
  induction cs generalizing s with
  | nil =>
    cases word_nil_iff.mp h
    exact .nil
  | cons c cs ih =>
    obtain ⟨s₁, hfirst, hothers⟩ := word_cons_iff.mp h
    obtain ⟨hc, hcs⟩ := List.forall_mem_cons.mp hkind
    exact .cons ⟨hc, hfirst⟩ (ih hothers hcs)

/-- The key in front of the array. -/
theorem dottedKey_tooLarge :
    DottedKey .none (tooLarge 0) ([], ⟨"render", ⟨0, 6⟩⟩) (tooLarge 7) := by
  have hword := word_tooLarge ['r', 'e', 'n', 'd', 'e', 'r'] 0 (by decide +kernel)
  have hblank := word_tooLarge [' '] 6 (by decide +kernel)
  have hkey : SimpleKey (tooLarge 0) ['r', 'e', 'n', 'd', 'e', 'r'] (tooLarge 6) :=
    .bare (List.cons_ne_nil _ _) (many_of_word hword (forall_mem_of_all (by decide)))
  exact .intro (.one (.intro ⟨[], .nil⟩ hkey ⟨_, .cons ⟨.inl rfl, hblank⟩ .nil⟩)) trivial

/-- The number, of which it only matters that it is one of the grammar. -/
theorem decimalFloat_tooLarge : ∃ x, DecimalFloat (tooLarge 16) x (tooLarge 21) := by
  have hone := word_tooLarge ['1'] 16 (by decide +kernel)
  have hletter := word_tooLarge ['e'] 17 (by decide +kernel)
  have hfour := word_tooLarge ['4'] 18 (by decide +kernel)
  have hzero := word_tooLarge ['0'] 19 (by decide +kernel)
  have hzero' := word_tooLarge ['0'] 20 (by decide +kernel)
  have hwhole : Whole (tooLarge 16) ['1'] (tooLarge 17) :=
    .digits (.intro ⟨by decide, hone⟩ .nil) (by decide)
  have hothers : Many (NextDigit IsDigit) (tooLarge 19) ['0', '0'] (tooLarge 21) :=
    .cons (.plain ⟨by decide, hzero⟩) (.cons (.plain ⟨by decide, hzero'⟩) .nil)
  have hdigits : Digits IsDigit (tooLarge 18) ['4', '0', '0'] (tooLarge 21) :=
    .intro ⟨by decide, hfour⟩ hothers
  exact ⟨_, .exponent .none hwhole (.intro ⟨.inl rfl, hletter⟩ .none hdigits)⟩

theorem isDocument_tooLarge : ∃ x, IsDocument .none "render = [true, 1e400]"
    [(⟨"render", ⟨0, 6⟩⟩, .array ⟨9, 22⟩ [.boolean ⟨10, 14⟩ true, .float ⟨16, 21⟩ x])] := by
  obtain ⟨x, hnumber⟩ := decimalFloat_tooLarge
  have hequals := word_tooLarge ['='] 7 (by decide +kernel)
  have hblank := word_tooLarge [' '] 8 (by decide +kernel)
  have hopened := word_tooLarge ['['] 9 (by decide +kernel)
  have hyes := word_tooLarge ['t', 'r', 'u', 'e'] 10 (by decide +kernel)
  have hcomma := word_tooLarge [','] 14 (by decide +kernel)
  have hblank' := word_tooLarge [' '] 15 (by decide +kernel)
  have hclosed := word_tooLarge [']'] 21 (by decide +kernel)
  have hfirst : Spaced (Scalar .none) (tooLarge 10) (.boolean ⟨10, 14⟩ true) (tooLarge 14) :=
    .intro .nil (.yes hyes) .nil
  have hsecond : Spaced (Scalar .none) (tooLarge 15) (.float ⟨16, 21⟩ x) (tooLarge 21) :=
    .intro (.blank ⟨.inl rfl, hblank'⟩ .nil) (.decimal hnumber trivial) .nil
  have hvalue : Value .none (tooLarge 9)
      (.array ⟨9, 22⟩ [.boolean ⟨10, 14⟩ true, .float ⟨16, 21⟩ x]) (tooLarge 22) :=
    ⟨1, trivial, .array (.items hopened (.more hfirst hcomma (.one hsecond)) .none .nil hclosed)⟩
  have hsaid := Said.assign dottedKey_tooLarge hequals ⟨_, .cons ⟨.inl rfl, hblank⟩ .nil⟩ hvalue
  have hline := Line.said ⟨[], .nil⟩ hsaid ⟨[], .nil⟩ .none
  exact ⟨x, _, ⟨_, _, .none, .last hline (by decide +kernel)⟩, rfl⟩

/-! ### Loading -/

variable {text : String} {t : Table}

theorem ofText_of_read? (h : Toml.read? text = some t) :
    ofText text = match Given.ofTable t with
      | .ok given => .ok given.settings
      | .error m => .error (.misfit text m) := by
  cases hg : Given.ofTable t <;> simp only [ofText, h, hg]

theorem ofText_eq_ok_iff (h : Toml.read? text = some t) {s : Settings} :
    ofText text = .ok s ↔ ∃ g, Fits t g ∧ g.settings = s := by
  have ht := (read?_eq_some_iff.mp h).wellFormed
  rw [ofText_of_read? h]
  cases hg : Given.ofTable t with
  | ok g =>
    have hfits := (ofTable_eq_ok_iff ht).mp hg
    refine ⟨fun heq => ⟨g, hfits, by cases heq; rfl⟩, fun ⟨g', hg', heq⟩ => ?_⟩
    rw [← heq, hfits.unique hg']
  | error m =>
    refine ⟨nofun, fun ⟨g', hg', _⟩ => ?_⟩
    rw [(ofTable_eq_ok_iff ht).mpr hg'] at hg
    cases hg

theorem ofText_of_alike {text' : String} {t' : Table} (h : Toml.read? text = some t)
    (h' : Toml.read? text' = some t') (halike : Alike t t') {s : Settings} :
    ofText text = .ok s ↔ ofText text' = .ok s := by
  rw [ofText_eq_ok_iff h, ofText_eq_ok_iff h']
  exact exists_congr fun g => and_congr_left fun _ =>
    ⟨fun hg => hg.of_alike halike, fun hg => hg.of_alike halike.symm⟩

/-- No statement is a header in double brackets. -/
def NoArrays (statements : List Statement) : Prop :=
  ∀ path key span, .nextHeader path key span ∉ statements

/-- Documents that say the same have the same contents, however it is spelled. -/
theorem alike_of_says {text text' : String} {statements statements' : List Statement} {t t' : Table}
    (htext : Says .ofReader text statements) (htext' : Says .ofReader text' statements')
    (hbuild : build? statements = some t) (hbuild' : build? statements' = some t')
    (hno : NoArrays statements) (hno' : NoArrays statements')
    (h : SayAlike (Told [] statements) (Told [] statements')) : Alike t t' := by
  have hholds (path : List String) (x : Option Item) :
      t.Holds path x ↔ Told [] statements path x := holds_build?_iff (htext.plain hno) hbuild
  have hholds' (path : List String) (x : Option Item) :
      t'.Holds path x ↔ Told [] statements' path x := holds_build?_iff (htext'.plain hno') hbuild'
  have ht : t.WellFormed := build?_wellFormed htext.wellFormed hbuild
  exact alike_of_sayAlike ht ⟨h.left.congr hholds hholds', h.right.congr hholds' hholds⟩

/-- The settings of a TOML document within the limits of the reader are loaded exactly if it has the
shape, and are those it gives over the default ones, put there in any order. Otherwise a misfit is
reported. Documents with the same contents are loaded alike, and so are documents that say the same by
headers, keys with dots and tables in braces. No settings are loaded from any other text. -/
theorem ofText_eq_ok_iff_fits (text : String) :
    (∀ t, IsDocument .ofReader text t →
      ((∃ s, ofText text = .ok s) ↔ ∃ g, Fits t g) ∧
      (∀ g, Fits t g →
        ofText text = .ok
          { terse := g.terse.getD true
            contextLines := g.contextLines.getD 3
            readSources := g.readSources.getD true
            defaultFilename := g.defaultFilename.getD "Pug" } ∧
        ∀ changes : List Setting, changes.Perm g.changes →
          ofText text = .ok (changes.foldl set {})) ∧
      ((¬ ∃ g, Fits t g) → ∃ m, ofText text = .error (.misfit text m)) ∧
      ∀ text' t', IsDocument .ofReader text' t' → Alike t t' →
        ∀ s, ofText text = .ok s ↔ ofText text' = .ok s) ∧
    (∀ text' statements statements' t t', Says .ofReader text statements →
      Says .ofReader text' statements' → build? statements = some t → build? statements' = some t' →
      NoArrays statements → NoArrays statements' →
      SayAlike (Told [] statements) (Told [] statements') →
      ∀ s, ofText text = .ok s ↔ ofText text' = .ok s) ∧
    ((¬ ∃ t, IsDocument .ofReader text t) → ofText text = .error .notToml) := by
  refine ⟨fun t ht => ?_, ?_, fun hno => ?_⟩
  · have h := read?_eq_some_iff.mpr ht
    refine ⟨?_, fun g hg => ?_, fun hno => ?_, fun text' t' ht' halike s =>
      ofText_of_alike h (read?_eq_some_iff.mpr ht') halike⟩
    · simp only [ofText_eq_ok_iff h]
      exact ⟨fun ⟨_, g, hg, _⟩ => ⟨g, hg⟩, fun ⟨g, hg⟩ => ⟨_, g, hg, rfl⟩⟩
    · refine ⟨(ofText_eq_ok_iff h).mpr ⟨g, hg, rfl⟩, fun changes hchanges => ?_⟩
      rw [Given.foldl_of_perm hchanges]
      exact (ofText_eq_ok_iff h).mpr ⟨g, hg, rfl⟩
    · rw [ofText_of_read? h]
      cases hread : Given.ofTable t with
      | ok g => exact absurd ⟨g, (ofTable_eq_ok_iff ht.wellFormed).mp hread⟩ hno
      | error m => exact ⟨m, rfl⟩
  · intro text' statements statements' t t' htext htext' hbuild hbuild' hno hno' h s
    have halike := alike_of_says htext htext' hbuild hbuild' hno hno' h
    have hread := read?_eq_some_iff.mpr ⟨statements, htext, hbuild⟩
    exact ofText_of_alike hread (read?_eq_some_iff.mpr ⟨statements', htext', hbuild'⟩) halike
  · have hnone : Toml.read? text = none :=
      Option.eq_none_iff_forall_ne_some.mpr fun t ht => hno ⟨t, read?_eq_some_iff.mp ht⟩
    simp only [ofText, hnone]

/-- A dotted key, a header with a comment, and a text that is no document within the limits. -/
theorem ofText_eq_ok_iff_fits_spellings :
    ofText "render.terse = false\n" = .ok { terse := false } ∧
    ofText "[render]\nterse = false # as in XHTML\n" = .ok { terse := false } ∧
    ofText "render = [true, 1e400]" = .error .notToml := by
  have hdotted : isDotted (statements ⟨0, "render.terse = false\n".toList⟩) := by
    decide +kernel
  have hheaded : isHeaded (statements ⟨0, "[render]\nterse = false # as in XHTML\n".toList⟩) := by
    decide +kernel
  obtain ⟨outer, inner, value, s, hs⟩ := eq_of_isDotted hdotted
  obtain ⟨outer', span, inner', value', s', hs'⟩ := eq_of_isHeaded hheaded
  have htext := statements_iff.mp ⟨s, hs⟩
  have htext' := statements_iff.mp ⟨s', hs'⟩
  have hsame := sayAlike_plainSyntax outer outer' span inner inner' value value'
  have hfits := fits_plainSyntax .dotted outer inner value
  have hnone : Toml.read? "render = [true, 1e400]" = none := by decide +kernel
  obtain ⟨hloads, hspelling, -⟩ := ofText_eq_ok_iff_fits "render.terse = false\n"
  have hloaded := ((hloads _ ⟨_, htext, rfl⟩).2.1 _ hfits).1
  refine ⟨hloaded, ?_, (ofText_eq_ok_iff_fits _).2.2 fun ⟨t, ht⟩ => ?_⟩
  · refine (hspelling _ _ _ _ _ htext htext' rfl rfl ?_ ?_ hsame _).mp hloaded
    · simp [NoArrays, assigns, plainSyntax]
    · simp [NoArrays, assigns, plainSyntax]
  · rw [read?_eq_some_iff.mpr ht] at hnone
    cases hnone

/-- A document of TOML 1.0 may have the shape and not be loaded: one of its numbers is too large. -/
theorem exists_fits_not_loaded : ∃ t g, IsDocument .none "render = [true, 1e400]" t ∧ Fits t g ∧
    ¬ ∃ s, ofText "render = [true, 1e400]" = .ok s := by
  obtain ⟨x, hdocument⟩ := isDocument_tooLarge
  have hnone : Toml.read? "render = [true, 1e400]" = none := by decide +kernel
  refine ⟨_, { terse := some true }, hdocument, ⟨by simp, ?_, rfl, rfl, rfl⟩, ?_⟩
  · exact .inr ⟨_, _, true, rfl, ⟨_, rfl⟩, rfl⟩
  · simp [ofText, hnone]

end Markup.Settings
