import LayoutLexer.Config
import LayoutLexer.Proofs.Json.Grammar

/-! # Configurations in every rendering

A configuration may be written in many ways: its settings in any order or left out if they are
defaults, unknown members between them, keys with escapes, blanks anywhere, or an array.  Each of
these renderings is read as the configuration, and a setting that is written twice is an error
(`Config.renderings_read`).

Reading an object keeps one invariant.  After some members the draft has exactly the settings whose
keys were among them, each with the value of the configuration (`Draft.of`).  What stands under an
unknown key is passed over by the grammar.  What is read as the value of a setting, right or wrong,
is what would be passed over (`skipValue_of_readSetting`), so the reader is at the end of the member
in any case.
-/
namespace LayoutLexer
namespace Config

open Json

/-! ## Renderings -/

/-- A switch as it is written. -/
def switchText (b : Bool) : Text := if b then "true".toList else "false".toList

namespace Field

/-- The value of a setting as it is written. -/
def written (c : Config) : Field → Text
  | .tabWidth => Text.decimal c.tabWidth
  | .skipTrivia => switchText c.skipTrivia
  | .trackIndentation => switchText c.trackIndentation

/-- Whether a setting has its default value: tabs are eight wide, trivia are handed out and
indentation is tracked. -/
def IsDefault (c : Config) : Field → Prop
  | .tabWidth => c.tabWidth = 8
  | .skipTrivia => c.skipTrivia = false
  | .trackIndentation => c.trackIndentation = true

end Field

/-- A member of an object is written so: its key in some spelling, and any value. -/
def RendersMember (written : Text) (member : Text × Text) : Prop :=
  ∃ key, SpellsText key member.1 ∧ Derives .value member.2 ∧ Joins key member.2 written

/-- An object with the given keys and the texts of their values. -/
def RendersObject (written : Text) (members : List (Text × Text)) : Prop :=
  ∃ elements object, List.Forall₂ RendersMember elements members ∧
    Encloses .object elements object ∧ Padded object written

/-- An array with the texts of its elements. -/
def RendersArray (written : Text) (values : List Text) : Prop :=
  ∃ elements array, List.Forall₂ Padded values elements ∧ Encloses .list elements array ∧
    Padded array written

/-- The members of an object list a configuration: no setting twice, each with its value, and every
setting that is not the default. -/
structure Lists (c : Config) (members : List (Text × Text)) : Prop where
  value : ∀ member ∈ members, ∀ f : Field, member.1 = f.name → member.2 = f.written c
  once : ∀ f : Field, (members.map Prod.fst).count f.name ≤ 1
  complete : ∀ f : Field, ¬ f.IsDefault c → f.name ∈ members.map Prod.fst

/-! ## Drafts -/

theorem Field.name_injective {f g : Field} (h : f.name = g.name) : f = g := by
  have hf := ofName?_name f
  rw [h, ofName?_name g] at hf
  exact (Option.some.inj hf).symm

theorem Field.name_of_ofName? {key : Text} {f : Field} (h : ofName? key = some f) :
    key = f.name := by
  have hname := List.find?_some h
  exact (eq_of_beq hname).symm

theorem Field.ne_name_of_ofName? {key : Text} (h : ofName? key = none) (f : Field) :
    f.name ≠ key := by
  rintro rfl
  rw [ofName?_name] at h
  cases h

namespace Draft

/-- The settings of a configuration whose keys were read. -/
def of (c : Config) (keys : List Text) : Draft where
  tabWidth := if Field.tabWidth.name ∈ keys then some c.tabWidth else none
  skipTrivia := if Field.skipTrivia.name ∈ keys then some c.skipTrivia else none
  trackIndentation := if Field.trackIndentation.name ∈ keys then some c.trackIndentation else none

variable (c : Config) {keys : List Text}

theorem of_nil : of c [] = {} := rfl

theorem mem_concat_name {f g : Field} : g.name ∈ keys ++ [f.name] ↔ g.name ∈ keys ∨ g = f := by
  have hname : g.name = f.name ↔ g = f := ⟨Field.name_injective, congrArg Field.name⟩
  rw [List.mem_append, List.mem_singleton, hname]

theorem has_of (f : Field) : (of c keys).has f = decide (f.name ∈ keys) := by
  cases f <;> simp only [has, of] <;> split <;> simp [*]

/-- An unknown key makes no difference. -/
theorem of_concat_unknown {key : Text} (h : Field.ofName? key = none) :
    of c (keys ++ [key]) = of c keys := by
  have hmem (f : Field) : f.name ∈ keys ++ [key] ↔ f.name ∈ keys := by
    simp [Field.ne_name_of_ofName? h f]
  simp only [of, hmem]

/-- What is left out is the default. -/
theorem config_of (h : ∀ f : Field, ¬ f.IsDefault c → f.name ∈ keys) : (of c keys).config = c := by
  have hleft {f : Field} (hf : f.name ∉ keys) : f.IsDefault c := by
    by_contra hdefault
    exact hf (h f hdefault)
  have hvalue {α : Type} {f : Field} {a default : α} (heq : f.IsDefault c → default = a) :
      (if f.name ∈ keys then some a else none).getD default = a := by
    split
    · rfl
    · next hf => exact heq (hleft hf)
  exact Config.mk.injEq .. ▸ ⟨hvalue Eq.symm, hvalue Eq.symm, hvalue Eq.symm⟩

end Draft

/-! ## Values -/

section Values
variable {draft : Draft} {f : Field} {d rest : Document}

theorem readSetting_congr {d d' : Document} (h : skipBlanks d = skipBlanks d') :
    readSetting draft f d = readSetting draft f d' := by
  have hwidth : readWidth d = readWidth d' := by simp only [readWidth, h]
  have hswitch : readSwitch d = readSwitch d' := by simp only [readSwitch, h]
  cases f <;> simp only [readSetting, Reader.map, hwidth, hswitch]

/-- What is read as a tab width is what would be passed over. -/
theorem skipValue_of_readWidth {n : Nat} (h : readWidth d = .ok (n, rest)) :
    skipValue d = .ok rest := by
  have hsign {negative : Bool} {d : Document}
      (h : readWidthAfterSign negative d = .ok (n, rest)) : skipNumber d = .ok rest := by
    unfold readWidthAfterSign at h
    split at h
    · cases h
    · next hnumber =>
      split at h
      · cases h
      · cases h; exact skipNumber_of_readNumber hnumber
  unfold readWidth at h
  split at h
  · cases h
  · next u rest' hb =>
    refine skipValue_of_skipScalar hb ?_
    split at h
    · next hminus =>
      subst hminus
      exact hsign h
    split at h
    · next hdigit => exact (skipScalar_digit hdigit rest').trans (hsign h)
    · cases h

/-- What is read as a switch is what would be passed over. -/
theorem skipValue_of_readSwitch {b : Bool} (h : readSwitch d = .ok (b, rest)) :
    skipValue d = .ok rest := by
  have hword {word : Text} {d : Document} {v : Bool}
      (h : ((expect word d).map fun rest => (v, rest)) = .ok (b, rest)) :
      expect word d = .ok rest := by
    cases he : expect word d with
    | error e => rw [he] at h; cases h
    | ok r => rw [he] at h; cases h; rfl
  unfold readSwitch at h
  split at h
  · cases h
  · next hb =>
    refine skipValue_of_skipScalar hb ?_
    split at h
    · next ht =>
      subst ht
      exact hword h
    split at h
    · next hf =>
      subst hf
      exact hword h
    · cases h

/-- What is read as the value of a setting is what would be passed over. -/
theorem skipValue_of_readSetting {draft' : Draft} (h : readSetting draft f d = .ok (draft', rest)) :
    skipValue d = .ok rest := by
  cases f with
  | tabWidth =>
    obtain ⟨_, h, -⟩ := Reader.map_eq_ok_iff.1 h
    exact skipValue_of_readWidth h
  | skipTrivia | trackIndentation =>
    obtain ⟨_, h, -⟩ := Reader.map_eq_ok_iff.1 h
    exact skipValue_of_readSwitch h

/-- Reading a setting adds it to the draft and nothing else. -/
theorem has_readSetting {draft' : Draft} (h : readSetting draft f d = .ok (draft', rest))
    (g : Field) : draft'.has g = (draft.has g || decide (g = f)) := by
  cases f <;>
  · obtain ⟨_, -, rfl⟩ := Reader.map_eq_ok_iff.1 h
    cases g <;> simp [Draft.has]

theorem readWidth_decimal {n : Nat} (hn : n < Checked.limit) (hd : NumberEnds d) :
    readWidth (Document.ofText (Text.decimal n) ++ d) = .ok (n, d) := by
  have hvalue : NumberParts.value ⟨digitValues n, none, none⟩ false = .ok (.integer n) := by
    have hfold : (digitValues n).foldl (fun n d => n * 10 + d) 0 = n := digitsValue_digitValues n
    have habsorb := absorb_of_lt (hfold.symm ▸ hn)
    rw [hfold] at habsorb
    simp [NumberParts.value, NumberParts.isWhole, habsorb]
  have hread : readWidthAfterSign false (Document.ofText (Text.decimal n) ++ d) = .ok (n, d) := by
    have hnonneg : ¬ (n : Int) < 0 := by omega
    simp only [readWidthAfterSign, readNumber, numberParts_decimal n hd, hvalue, widthOf,
      hnonneg, if_false, Int.toNat_natCast]
  obtain ⟨c, t, ht, hc⟩ := (unsignedText_decimal n).exists_cons
  rw [ht, Document.ofText_cons, List.cons_append] at hread ⊢
  rw [readWidth, skipBlanks_cons (isBlank_of_isDigit hc)]
  simp only [hc, ne_of_isDigit hc (v := some '-') rfl, if_true, if_false]
  exact hread

theorem readSwitch_switchText (b : Bool) (d : Document) :
    readSwitch (Document.ofText (switchText b) ++ d) = .ok (b, d) := by
  cases b <;> rfl

variable (c : Config) {keys : List Text}

/-- A setting of a configuration is read into the draft. -/
theorem readSetting_written (hwidth : c.tabWidth < Checked.limit) (f : Field) (hd : NumberEnds d) :
    readSetting (.of c keys) f (Document.ofText (f.written c) ++ d) =
      .ok (.of c (keys ++ [f.name]), d) := by
  cases f with
  | tabWidth =>
    refine Reader.map_eq_ok_iff.2 ⟨c.tabWidth, readWidth_decimal hwidth hd, ?_⟩
    simp only [Draft.of, Draft.mem_concat_name, reduceCtorEq, or_false, or_true, if_true]
  | skipTrivia | trackIndentation =>
    refine Reader.map_eq_ok_iff.2 ⟨_, readSwitch_switchText _ d, ?_⟩
    simp only [Draft.of, Draft.mem_concat_name, reduceCtorEq, or_false, or_true, if_true]

end Values

/-! ## Members -/

section Members
variable {c : Config} {draft : Draft} {first : Bool} {key : Text} {keys : List Text}
  {member : Text × Text} {members : List (Text × Text)} {written : Text} {elements : List Text}
  {d rest : Document}

/-- Reads the value of a member under a key, past its colon. -/
def readValue (key : Text) (draft : Draft) : Reader Draft := fun d =>
  match Field.ofName? key with
  | some field =>
    if draft.has field then .error (.mismatch (.duplicateField field.name))
    else readSetting draft field d
  | none => (skipValue d).map fun rest => (draft, rest)

theorem readValueOf_of_skipColon (h : skipColon d = .ok rest) :
    readValueOf key draft d = readValue key draft rest := by
  unfold readValueOf readValue
  split <;> simp only [*]

theorem readMembers_congr {d d' : Document} (h : skipBlanks d = skipBlanks d') :
    readMembers first draft d = readMembers first draft d' := by
  have hkey : nextKey first d = nextKey first d' := by simp only [nextKey, h]
  conv_lhs => rw [readMembers, hkey]
  conv_rhs => rw [readMembers]

theorem readMembers_member (h : nextKey first d = .ok (true, rest)) :
    readMembers first draft d =
      (readMember draft rest).bind fun read => readMembers false read.1 read.2 := by
  rw [readMembers]
  split
  · next hk => rw [h] at hk; cases hk
  · next hk => rw [h] at hk; cases hk
  · next hk =>
    rw [h] at hk
    cases hk
    split <;> next hm => rw [hm]; rfl

theorem readMembers_end (h : nextKey first d = .ok (false, rest)) :
    readMembers first draft d = .ok (draft, rest) := by
  rw [readMembers]
  split
  · next hk => rw [h] at hk; cases hk
  · next hk => rw [h] at hk; cases hk; rfl
  · next hk => rw [h] at hk; cases hk

theorem nextKey_closing : nextKey first (some '}' :: d) = .ok (false, d) := by
  rw [nextKey, skipBlanks_cons rfl]
  rfl

/-- A member is read by its key and its value, as the first one or after a comma. -/
theorem RendersMember.read (h : RendersMember written member) :
    ∃ value, Padded member.2 value ∧ ∀ (draft : Draft) (d : Document),
      readMembers true draft (Document.ofText written ++ d) =
        readMembers false draft (some ',' :: (Document.ofText written ++ d)) ∧
      readMembers false draft (some ',' :: (Document.ofText written ++ d)) =
        (readValue member.1 draft (Document.ofText value ++ d)).bind
          fun read => readMembers false read.1 read.2 := by
  obtain ⟨key, hkey, -, before, value, hbefore, hvalue, rfl⟩ := h
  obtain ⟨parts, hparts, rfl⟩ := hkey
  obtain ⟨blanks, blanks', hblanks, hblanks', rfl⟩ := hbefore
  refine ⟨value, hvalue, fun draft d => ?_⟩
  -- after the key come its blanks, the colon and the value
  have hshape : Document.ofText (blanks ++ ('"' :: (parts.flatten ++ ['"']) ++ blanks') ++
      ':' :: value) ++ d = Document.ofText blanks ++ some '"' ::
        (Document.ofText (parts.flatten ++ ['"']) ++ (Document.ofText blanks' ++
          some ':' :: (Document.ofText value ++ d))) := by
    simp
  have hstop {c : Char} (d : Document) (hc : isBlank (some c) = false) :
      skipBlanks (some c :: d) = some c :: d := skipBlanks_cons hc
  have hfirst {d : Document} :
      nextKey true (Document.ofText blanks ++ some '"' :: d) = .ok (true, d) := by
    simp [nextKey, skipBlanks_blanks hblanks, hstop d (c := '"') rfl]
  have hnext {d : Document} :
      nextKey false (some ',' :: (Document.ofText blanks ++ some '"' :: d)) = .ok (true, d) := by
    simp [nextKey, hstop _ (c := ',') rfl, skipBlanks_blanks hblanks, hstop d (c := '"') rfl]
  have hskip : skipColon (Document.ofText blanks' ++ some ':' :: (Document.ofText value ++ d)) =
      .ok (Document.ofText value ++ d) := by
    simp [skipColon, skipBlanks_blanks hblanks', hstop _ (c := ':') rfl]
  have hmember : readMember draft (Document.ofText (parts.flatten ++ ['"']) ++
      (Document.ofText blanks' ++ some ':' :: (Document.ofText value ++ d))) =
        readValue member.1 draft (Document.ofText value ++ d) := by
    simp only [readMember, readString_spells hparts, readValueOf_of_skipColon hskip]
  rw [hshape, readMembers_member hfirst, readMembers_member hnext, hmember]
  exact ⟨rfl, rfl⟩

theorem RendersMember.derives (h : RendersMember written member) : Derives .value member.2 := by
  obtain ⟨_, _, hvalue, _⟩ := h
  exact hvalue

/-- A member with the value of the configuration is read into the draft. -/
theorem readMembers_listed (hwidth : c.tabWidth < Checked.limit)
    (h : RendersMember written member)
    (hvalue : ∀ f : Field, member.1 = f.name → member.2 = f.written c)
    (hnew : ∀ f : Field, member.1 = f.name → f.name ∉ keys) (hd : NumberEnds d) :
    readMembers false (.of c keys) (some ',' :: (Document.ofText written ++ d)) =
      readMembers false (.of c (keys ++ [member.1])) d := by
  obtain ⟨padded, hpadded, hread⟩ := h.read
  suffices hafter : ∃ after, Blanks after ∧
      readValue member.1 (.of c keys) (Document.ofText padded ++ d) =
        .ok (.of c (keys ++ [member.1]), Document.ofText after ++ d) by
    obtain ⟨after, hblanks, hafter⟩ := hafter
    rw [(hread _ d).2, hafter]
    exact readMembers_congr (skipBlanks_blanks hblanks d)
  cases hf : Field.ofName? member.1 with
  | none =>
    obtain ⟨after, hblanks, hskip⟩ := skipValue_padded h.derives hpadded hd
    refine ⟨after, hblanks, ?_⟩
    simp only [readValue, hf, hskip, Draft.of_concat_unknown c hf]
    rfl
  | some f =>
    have hname := Field.name_of_ofName? hf
    have hhas : (Draft.of c keys).has f = false := by
      rw [Draft.has_of, decide_eq_false (hnew f hname)]
    obtain ⟨after, hblanks, hskip⟩ := hpadded.skipBlanks
    refine ⟨after, hblanks, ?_⟩
    simp only [readValue, hf, hhas, Bool.false_eq_true, if_false]
    rw [readSetting_congr (hskip d), hvalue f hname,
      readSetting_written c hwidth f (hd.blanks hblanks), hname]

/-- Members with the values of the configuration are read into the draft. -/
theorem readMembers_run (hwidth : c.tabWidth < Checked.limit)
    (h : List.Forall₂ RendersMember elements members)
    (hvalue : ∀ member ∈ members, ∀ f : Field, member.1 = f.name → member.2 = f.written c)
    (honce : ∀ f : Field, (keys ++ members.map Prod.fst).count f.name ≤ 1) (hd : NumberEnds d) :
    readMembers false (.of c keys) (Document.ofText (elements.flatMap (',' :: ·)) ++ d) =
      readMembers false (.of c (keys ++ members.map Prod.fst)) d := by
  induction h generalizing keys with
  | nil => rw [List.map_nil, List.append_nil]; rfl
  | @cons written member elements members hmember _ ih =>
    have hnew (f : Field) (hf : member.1 = f.name) : f.name ∉ keys := by
      intro hmem
      have hcount := honce f
      have hpos := List.count_pos_iff.2 hmem
      rw [List.count_append, List.map_cons, hf, List.count_cons_self] at hcount
      omega
    rw [ofText_commas_cons, readMembers_listed hwidth hmember
      (hvalue member List.mem_cons_self) hnew (numberEnds_flatMap elements hd)]
    rw [List.map_cons, List.append_cons keys member.1 (members.map Prod.fst)] at honce ⊢
    exact ih (fun member hmem => hvalue member (List.mem_cons_of_mem _ hmem)) honce

/-! ## Repeated settings -/

/-- Where a value stands under a key, reading it is an error or ends where the value ends.  It adds
the setting of the key, which the draft did not have. -/
theorem readValue_cases (key : Text) (draft : Draft) {value padded : Text}
    (hvalue : Derives .value value) (hpadded : Padded value padded) (hd : NumberEnds d) :
    (∃ e, readValue key draft (Document.ofText padded ++ d) = .error e) ∨
      ∃ draft' after, Blanks after ∧
        readValue key draft (Document.ofText padded ++ d) =
          .ok (draft', Document.ofText after ++ d) ∧
        ∀ f : Field, (draft'.has f).toNat = (draft.has f).toNat + [key].count f.name := by
  obtain ⟨after, hblanks, hskip⟩ := skipValue_padded hvalue hpadded hd
  cases hf : Field.ofName? key with
  | none =>
    refine .inr ⟨draft, after, hblanks, by simp only [readValue, hf, hskip]; rfl, fun f => ?_⟩
    rw [List.count_singleton, if_neg (by simpa using (Field.ne_name_of_ofName? hf f).symm)]
    rfl
  | some g =>
    obtain rfl := Field.name_of_ofName? hf
    cases hhas : draft.has g with
    | true => exact .inl ⟨_, by simp only [readValue, hf, hhas, if_true]; rfl⟩
    | false =>
      have hread : readValue g.name draft (Document.ofText padded ++ d) =
          readSetting draft g (Document.ofText padded ++ d) := by
        simp only [readValue, hf, hhas, Bool.false_eq_true, if_false]
      cases hsetting : readSetting draft g (Document.ofText padded ++ d) with
      | error e => exact .inl ⟨e, hread.trans hsetting⟩
      | ok read =>
        obtain ⟨draft', rest⟩ := read
        have hrest := skipValue_of_readSetting hsetting
        rw [hskip] at hrest
        cases hrest
        refine .inr ⟨draft', after, hblanks, hread.trans hsetting, fun f => ?_⟩
        rw [has_readSetting hsetting f, List.count_singleton]
        by_cases hfg : f = g
        · subst hfg
          simp [hhas]
        · have hname : g.name ≠ f.name := fun h => hfg (Field.name_injective h).symm
          simp [hfg, hname]

/-- A setting that is written once more than it may be is an error, whatever its values are. -/
theorem readMembers_repeated (h : List.Forall₂ RendersMember elements members) {f : Field}
    (htwice : 2 ≤ (draft.has f).toNat + (members.map Prod.fst).count f.name)
    (hd : NumberEnds d) :
    ∃ e, readMembers false draft (Document.ofText (elements.flatMap (',' :: ·)) ++ d) =
      .error e := by
  induction h generalizing draft with
  | nil =>
    have := (draft.has f).toNat_le
    rw [List.map_nil, List.count_nil] at htwice
    omega
  | @cons written member elements members hmember _ ih =>
    obtain ⟨padded, hpadded, hread⟩ := hmember.read
    rw [ofText_commas_cons, (hread draft _).2]
    -- a member moves its setting from the keys to come into the draft, so the sum stays as it is
    obtain ⟨e, herror⟩ | ⟨draft', after, hblanks, hok, hhas⟩ :=
      readValue_cases member.1 draft hmember.derives hpadded (numberEnds_flatMap elements hd)
    · exact ⟨e, by rw [herror]; rfl⟩
    · rw [List.map_cons, ← List.singleton_append, List.count_append] at htwice
      have hstill : 2 ≤ (draft'.has f).toNat + (members.map Prod.fst).count f.name := by
        have := hhas f
        omega
      obtain ⟨e, herror⟩ := ih hstill
      refine ⟨e, ?_⟩
      rw [hok]
      exact (readMembers_congr (skipBlanks_blanks hblanks _)).trans herror

/-- A setting that the draft has already is an error that names it. -/
theorem readMembers_duplicate {f : Field} {value : Text}
    (h : RendersMember written (f.name, value)) (hhas : draft.has f = true) (d : Document) :
    readMembers false draft (some ',' :: (Document.ofText written ++ d)) =
      .error (.mismatch (.duplicateField f.name)) := by
  obtain ⟨padded, -, hread⟩ := h.read
  have hvalue : readValue f.name draft (Document.ofText padded ++ d) =
      .error (.mismatch (.duplicateField f.name)) := by
    simp only [readValue, Field.ofName?_name, hhas, if_true]
  rw [(hread draft d).2, hvalue]
  rfl

end Members

/-! ## Objects -/

section Objects
variable {c : Config} {members : List (Text × Text)} {t : Text}

theorem ofText_of_readDraft {draft : Draft} {after : Text}
    (h : readDraft (Document.ofText t) = .ok (draft, Document.ofText after))
    (hafter : Blanks after) : ofText t = .ok draft.config := by
  have hend : skipBlanks (Document.ofText after) = [] := by
    have hskip := skipBlanks_blanks hafter []
    rwa [List.append_nil] at hskip
  rw [ofText, ofDocument, h]
  simp only [hend]

/-- An object is read by its members, as if a comma stood before the first one too. -/
theorem RendersObject.read (h : RendersObject t members) :
    ∃ elements after, List.Forall₂ RendersMember elements members ∧ Blanks after ∧
      readDraft (Document.ofText t) = readMembers false {}
        (Document.ofText (elements.flatMap (',' :: ·)) ++ some '}' :: Document.ofText after) := by
  obtain ⟨elements, object, hmembers, hobject, before, after, hbefore, hafter, rfl⟩ := h
  refine ⟨elements, after, hmembers, hafter, ?_⟩
  have hopen (d : Document) : readDraft (Document.ofText before ++ some '{' :: d) =
      readMembers true {} d := by
    rw [readDraft, skipBlanks_blanks hbefore, skipBlanks_cons rfl]
    rfl
  cases hobject with
  | @none blanks hblanks =>
    simp only [Frame.opening, Frame.closing, Document.ofText_concat, Document.ofText_cons,
      Document.ofText_nil, List.append_assoc, List.cons_append, List.nil_append, hopen,
      readMembers_congr (skipBlanks_blanks hblanks _), List.flatMap_nil]
    rw [readMembers_end nextKey_closing, readMembers_end nextKey_closing]
  | some first more =>
    cases hmembers with
    | cons hfirst _ =>
      obtain ⟨_, _, hread⟩ := hfirst.read
      simp only [Frame.opening, Frame.closing, intercalate_comma, Document.ofText_concat,
        Document.ofText_cons, List.append_assoc, List.cons_append, List.nil_append, hopen,
        List.flatMap_cons]
      exact (hread {} _).1

theorem numberEnds_brace (d : Document) : NumberEnds (some '}' :: d) :=
  numberEnds_cons rfl (by decide)

/-- An object that lists a configuration is read as it. -/
theorem ofText_object (hwidth : c.tabWidth < Checked.limit) (hlists : Lists c members)
    (h : RendersObject t members) : ofText t = .ok c := by
  obtain ⟨elements, after, hmembers, hafter, hread⟩ := h.read
  rw [← Draft.of_nil c, readMembers_run hwidth hmembers hlists.value hlists.once
    (numberEnds_brace _), readMembers_end nextKey_closing] at hread
  rw [ofText_of_readDraft hread hafter, List.nil_append, Draft.config_of c hlists.complete]

/-- An object that has a setting twice is not read, whatever else is in it. -/
theorem ofText_repeated {f : Field} (htwice : 2 ≤ (members.map Prod.fst).count f.name)
    (h : RendersObject t members) : ∃ e, ofText t = .error e := by
  obtain ⟨elements, after, hmembers, -, hread⟩ := h.read
  have hstart : 2 ≤ (Draft.has {} f).toNat + (members.map Prod.fst).count f.name :=
    Nat.le_trans htwice (Nat.le_add_left _ _)
  obtain ⟨e, herror⟩ := readMembers_repeated hmembers hstart
    (numberEnds_brace (Document.ofText after))
  refine ⟨e, ?_⟩
  rw [ofText, ofDocument, hread, herror]

/-- Where a setting stands a second time after the members that list a configuration up to there,
the error names it. -/
theorem ofText_duplicate (hwidth : c.tabWidth < Checked.limit) {before after : List (Text × Text)}
    {f : Field} {value : Text}
    (hvalue : ∀ member ∈ before, ∀ f : Field, member.1 = f.name → member.2 = f.written c)
    (honce : ∀ f : Field, (before.map Prod.fst).count f.name ≤ 1)
    (hmem : f.name ∈ before.map Prod.fst)
    (h : RendersObject t (before ++ (f.name, value) :: after)) :
    ofText t = .error (.mismatch (.duplicateField f.name)) := by
  obtain ⟨elements, blanks, hmembers, -, hread⟩ := h.read
  have hbefore := List.forall₂_take_append elements before _ hmembers
  have hafter := List.forall₂_drop_append elements before _ hmembers
  have hhas : (Draft.of c ([] ++ before.map Prod.fst)).has f = true := by
    rw [Draft.has_of]
    exact decide_eq_true hmem
  rw [← List.take_append_drop before.length elements, List.flatMap_append, Document.ofText_concat,
    List.append_assoc] at hread
  cases hrest : elements.drop before.length with
  | nil => rw [hrest] at hafter; cases hafter
  | cons written rest =>
    rw [hrest] at hafter hread
    cases hafter with
    | cons hrepeated _ =>
      have hends : NumberEnds (Document.ofText ((written :: rest).flatMap (',' :: ·)) ++
          some '}' :: Document.ofText blanks) := numberEnds_flatMap _ (numberEnds_brace _)
      rw [← Draft.of_nil c, readMembers_run hwidth hbefore hvalue honce hends,
        ofText_commas_cons, readMembers_duplicate hrepeated hhas] at hread
      rw [ofText, ofDocument, hread]

end Objects

/-! ## Arrays -/

section Arrays
variable {c : Config} {elements : List Text} {draft : Draft} {first : Bool} {t : Text}
  {d : Document}

theorem nextElement_congr {d d' : Document} (h : skipBlanks d = skipBlanks d') :
    nextElement first d = nextElement first d' := by simp only [nextElement, h]

theorem nextElement_closing : nextElement first (some ']' :: d) = .ok (false, some ']' :: d) := by
  rw [nextElement, skipBlanks_cons rfl]
  rfl

/-- The reader finds an element, as the first one or after a comma. -/
theorem nextElement_found {u : Option Char} {rest : Document} (h : skipBlanks d = u :: rest)
    (hclose : u ≠ some ']') :
    nextElement true d = .ok (true, u :: rest) ∧
      nextElement false (some ',' :: d) = .ok (true, u :: rest) := by
  constructor
  · simp only [nextElement, h, hclose, if_true, if_false]
  · rw [nextElement, skipBlanks_cons rfl]
    simp [h, hclose]

/-- The value of a setting begins with no blank and is no closing bracket. -/
theorem Field.written_eq_cons (c : Config) (f : Field) :
    ∃ u t, f.written c = u :: t ∧ isBlank (some u) = false ∧ u ≠ ']' := by
  have hswitch (b : Bool) : ∃ u t, switchText b = u :: t ∧ isBlank (some u) = false ∧ u ≠ ']' := by
    cases b
    · exact ⟨'f', _, rfl, rfl, by decide⟩
    · exact ⟨'t', _, rfl, rfl, by decide⟩
  cases f with
  | tabWidth =>
    obtain ⟨u, t, ht, hu⟩ := (unsignedText_decimal c.tabWidth).exists_cons
    refine ⟨u, t, ht, isBlank_of_isDigit hu, ?_⟩
    rintro rfl
    cases hu
  | skipTrivia => exact hswitch c.skipTrivia
  | trackIndentation => exact hswitch c.trackIndentation

/-- The reader finds the value of a setting, as the first element or after a comma. -/
theorem nextElement_written {f : Field} {written : Text} (h : Padded (f.written c) written)
    (d : Document) :
    ∃ after rest, Blanks after ∧
      skipBlanks rest = skipBlanks (Document.ofText (f.written c) ++ (Document.ofText after ++ d)) ∧
      nextElement true (Document.ofText written ++ d) = .ok (true, rest) ∧
      nextElement false (some ',' :: (Document.ofText written ++ d)) = .ok (true, rest) := by
  obtain ⟨after, hafter, hskip⟩ := h.skipBlanks
  obtain ⟨u, value, hvalue, hblank, hclose⟩ := f.written_eq_cons c
  have hstart : skipBlanks (Document.ofText written ++ d) =
      some u :: (Document.ofText value ++ (Document.ofText after ++ d)) := by
    rw [hskip, hvalue, Document.ofText_cons, List.cons_append, skipBlanks_cons hblank]
  refine ⟨after, some u :: (Document.ofText value ++ (Document.ofText after ++ d)), hafter, ?_, ?_,
    ?_⟩
  · rw [hvalue, Document.ofText_cons, List.cons_append]
  · exact (nextElement_found hstart (by simpa using hclose)).1
  · exact (nextElement_found hstart (by simpa using hclose)).2

theorem readElements_congr {f : Field} {fields : List Field} {first' : Bool} {d d' : Document}
    (h : nextElement first d = nextElement first' d') :
    readElements first draft (f :: fields) d = readElements first' draft (f :: fields) d' := by
  simp only [readElements, h]

/-- A setting of the configuration is read into the draft. -/
theorem readElements_listed (hwidth : c.tabWidth < Checked.limit) {f : Field} {written : Text}
    (h : Padded (f.written c) written) (keys : List Text) (fields : List Field)
    (hd : NumberEnds d) :
    ∃ after, Blanks after ∧
      readElements false (.of c keys) (f :: fields) (some ',' :: (Document.ofText written ++ d)) =
        readElements false (.of c (keys ++ [f.name])) fields (Document.ofText after ++ d) := by
  obtain ⟨after, rest, hafter, hrest, -, hnext⟩ := nextElement_written h d
  have hsetting : readSetting (.of c keys) f rest = .ok (.of c (keys ++ [f.name]), _) :=
    (readSetting_congr hrest).trans (readSetting_written c hwidth f (hd.blanks hafter))
  refine ⟨after, hafter, ?_⟩
  simp only [readElements, hnext, hsetting]

/-- The settings of a configuration are read in their order, up to the closing bracket. -/
theorem readElements_run (hwidth : c.tabWidth < Checked.limit) {fields : List Field}
    (h : List.Forall₂ Padded (fields.map (Field.written c)) elements) (keys : List Text)
    (more : List Field) {blanks : Text} (hblanks : Blanks blanks) (d : Document) :
    ∃ after, Blanks after ∧
      readElements false (.of c keys) (fields ++ more) (Document.ofText blanks ++
        (Document.ofText (elements.flatMap (',' :: ·)) ++ some ']' :: d)) =
          .ok (.of c (keys ++ fields.map Field.name), Document.ofText after ++ some ']' :: d) := by
  induction fields generalizing elements keys blanks with
  | nil =>
    cases h
    rw [List.map_nil, List.append_nil, List.nil_append, List.flatMap_nil, Document.ofText_nil,
      List.nil_append]
    cases more with
    | nil => exact ⟨blanks, hblanks, rfl⟩
    | cons f more =>
      refine ⟨[], by simp [Blanks], ?_⟩
      rw [readElements_congr (nextElement_congr (skipBlanks_blanks hblanks _))]
      simp only [readElements, nextElement_closing]
      rfl
  | cons f fields ih =>
    cases h with
    | @cons _ written _ elements hwritten helements =>
      have hends : NumberEnds (Document.ofText (elements.flatMap (',' :: ·)) ++ some ']' :: d) :=
        numberEnds_flatMap elements (numberEnds_cons rfl (by decide))
      obtain ⟨after, hafter, hlisted⟩ :=
        readElements_listed hwidth hwritten keys (fields ++ more) hends
      obtain ⟨after', hafter', hread⟩ := ih helements (keys ++ [f.name]) hafter
      refine ⟨after', hafter', ?_⟩
      rw [List.cons_append, readElements_congr (nextElement_congr (skipBlanks_blanks hblanks _)),
        ofText_commas_cons, hlisted, hread, List.map_cons,
        List.append_cons keys f.name (fields.map Field.name)]

/-- An array is read by its elements, as if a comma stood before the first one too. -/
theorem RendersArray.read {fields : List Field}
    (h : RendersArray t (fields.map (Field.written c))) :
    ∃ elements inner after, List.Forall₂ Padded (fields.map (Field.written c)) elements ∧
      Blanks after ∧ readDraft (Document.ofText t) = readArray inner ∧
      nextElement true inner = nextElement false
        (Document.ofText (elements.flatMap (',' :: ·)) ++ some ']' :: Document.ofText after) := by
  obtain ⟨elements, array, helements, harray, before, after, hbefore, hafter, rfl⟩ := h
  have hopen (d : Document) :
      readDraft (Document.ofText before ++ some '[' :: d) = readArray d := by
    rw [readDraft, skipBlanks_blanks hbefore, skipBlanks_cons rfl]
    rfl
  suffices hinner : ∃ inner, Document.ofText (array ++ after) = some '[' :: inner ∧
      nextElement true inner = nextElement false
        (Document.ofText (elements.flatMap (',' :: ·)) ++ some ']' :: Document.ofText after) by
    obtain ⟨inner, hinner, hnext⟩ := hinner
    refine ⟨elements, inner, after, helements, hafter, ?_, hnext⟩
    rw [Document.ofText_concat, hinner, hopen]
  cases harray with
  | @none blanks hblanks =>
    refine ⟨Document.ofText blanks ++ some ']' :: Document.ofText after, ?_, ?_⟩
    · simp [Frame.opening, Frame.closing]
    · rw [nextElement_congr (skipBlanks_blanks hblanks _)]
      exact nextElement_closing.trans nextElement_closing.symm
  | some first more =>
    refine ⟨Document.ofText first ++ (Document.ofText (more.flatMap (',' :: ·)) ++
      some ']' :: Document.ofText after), ?_, ?_⟩
    · simp [Frame.opening, Frame.closing, intercalate_comma]
    · cases fields with
      | nil => cases helements
      | cons f fields =>
        cases helements with
        | cons hfirst _ =>
          obtain ⟨_, rest, _, _, hstart, hcomma⟩ := nextElement_written hfirst
            (Document.ofText (more.flatMap (',' :: ·)) ++ some ']' :: Document.ofText after)
          simpa using hstart.trans hcomma.symm

/-- An array of the first settings of a configuration is read as it if the others are default. -/
theorem ofText_array (hwidth : c.tabWidth < Checked.limit) {n : Nat}
    (hdefault : ∀ f ∈ Field.all.drop n, f.IsDefault c)
    (h : RendersArray t ((Field.all.take n).map (Field.written c))) : ofText t = .ok c := by
  obtain ⟨elements, inner, after, helements, hafter, hdraft, hfirst⟩ := h.read
  have hnone : Blanks [] := by decide
  obtain ⟨blanks, hblanks, hread⟩ :=
    readElements_run hwidth helements [] (Field.all.drop n) hnone (Document.ofText after)
  rw [List.take_append_drop, Document.ofText_nil, List.nil_append, List.nil_append,
    Draft.of_nil] at hread
  have hend : endArray (Document.ofText blanks ++ some ']' :: Document.ofText after) =
      .ok (Document.ofText after) := by
    rw [endArray, skipBlanks_blanks hblanks, skipBlanks_cons rfl]
    rfl
  have harray : readArray inner =
      .ok (.of c ((Field.all.take n).map Field.name), Document.ofText after) := by
    rw [readArray, Field.all, readElements_congr hfirst]
    rw [Field.all] at hread
    simp only [hread, hend]
    rfl
  refine (ofText_of_readDraft (hdraft.trans harray) hafter).trans ?_
  congr 1
  refine Draft.config_of c fun f hf => List.mem_map_of_mem ?_
  have hmem : f ∈ Field.all.take n ++ Field.all.drop n := by
    rw [List.take_append_drop]
    cases f <;> decide
  exact (List.mem_append.1 hmem).resolve_right fun hdrop => hf (hdefault f hdrop)

end Arrays

/-! ## Every rendering -/

/-- A configuration is read from each of its renderings: from every object that lists it, and from
the array of its settings, of which the last ones may be left out if they are default.  With a
member more under the key of a setting that it lists, whatever its value is, an object is not read;
where the member comes second, the error names the setting. -/
theorem renderings_read (c : Config) (hwidth : c.tabWidth < Checked.limit) :
    (∀ members t, Lists c members → RendersObject t members → ofText t = .ok c) ∧
    (∀ n t, (∀ f ∈ Field.all.drop n, f.IsDefault c) →
      RendersArray t ((Field.all.take n).map (Field.written c)) → ofText t = .ok c) ∧
    (∀ before after (f : Field) value t, Lists c (before ++ after) →
      f.name ∈ (before ++ after).map Prod.fst →
      RendersObject t (before ++ (f.name, value) :: after) →
      ∃ e, ofText t = .error e ∧
        (f.name ∈ before.map Prod.fst → e = .mismatch (.duplicateField f.name))) := by
  refine ⟨fun members t hlists h => ofText_object hwidth hlists h,
    fun n t hdefault h => ofText_array hwidth hdefault h, ?_⟩
  intro before after f value t hlists hmem h
  have htwice : 2 ≤ ((before ++ (f.name, value) :: after).map Prod.fst).count f.name := by
    have hpos := List.count_pos_iff.2 hmem
    rw [List.map_append, List.count_append] at hpos
    rw [List.map_append, List.map_cons, List.count_append, List.count_cons_self]
    omega
  obtain ⟨e, herror⟩ := ofText_repeated htwice h
  refine ⟨e, herror, fun hbefore => ?_⟩
  have hduplicate := ofText_duplicate hwidth
    (fun member hmember => hlists.value member (List.mem_append_left _ hmember))
    (fun f => Nat.le_trans (by rw [List.map_append, List.count_append]; omega) (hlists.once f))
    hbefore h
  rw [hduplicate] at herror
  exact (Except.error.inj herror).symm

/-- The greatest tab width, in an object with an unknown member and an escape in a key, in an
array, and in an object that goes on with a second value for it. -/
theorem renderings_read_widest :
    ofText "\x7b\"x\":[null], \"tab\\u005fwidth\":18446744073709551615\x7d".toList =
      .ok { tabWidth := 18446744073709551615 } ∧
    ofText "[18446744073709551615]".toList = .ok { tabWidth := 18446744073709551615 } ∧
    ofText "\x7b\"tab_width\":18446744073709551615,\"tab_width\":[null]\x7d".toList =
      .error (.mismatch (.duplicateField "tab_width".toList)) := by
  let c : Config := { tabWidth := 18446744073709551615 }
  obtain ⟨hobject, harray, hrepeated⟩ := renderings_read c (by decide)
  have hwritten : Field.tabWidth.written c = "18446744073709551615".toList := by decide
  have hwidth : Derives .value "18446744073709551615".toList :=
    hwritten ▸ .number (.positive (unsignedText_decimal _))
  have hnull : ∀ element ∈ ["null".toList], Derives (.element .list) element :=
    List.forall_mem_singleton.2 (.item (.word (.inl rfl)) (padded_refl _))
  have hlist : Derives .value "[null]".toList := .enclosed hnull (.some _ [])
  have hescaped : SpellsText "\"tab\\u005fwidth\"".toList Field.tabWidth.name := by
    have hdigits : FourDigits "005f".toList '_'.toNat :=
      .mk (hexDigit_digitChar (n := 0) (by decide)) (hexDigit_digitChar (n := 0) (by decide))
        (hexDigit_digitChar (n := 5) (by decide)) (hexDigit_digitChar (n := 15) (by decide))
    exact ⟨_, List.rel_append (spells_of_plain (t := "tab".toList) (by decide))
      (.cons (.code hdigits) (spells_of_plain (t := "width".toList) (by decide))), by decide⟩
  have hmember {key value : Text} (hkey : PlainText key) (hvalue : Derives .value value) :
      RendersMember ('"' :: (key ++ ['"']) ++ ':' :: value) (key, value) :=
    ⟨_, spellsText_of_plain hkey, hvalue, _, _, padded_refl _, padded_refl _, rfl⟩
  have hlists (others : List (Text × Text))
      (hunknown : ∀ member ∈ others, ∀ f : Field, member.1 ≠ f.name) :
      Lists c (others ++ [(Field.tabWidth.name, "18446744073709551615".toList)]) := by
    refine ⟨fun member hmember f hf => ?_, fun f => ?_, fun f hf => ?_⟩
    · rcases List.mem_append.1 hmember with h | h
      · exact absurd hf (hunknown member h f)
      · obtain rfl := List.mem_singleton.1 h
        obtain rfl : Field.tabWidth = f := Field.name_injective hf
        exact hwritten.symm
    · have hothers : (others.map Prod.fst).count f.name = 0 := by
        refine List.count_eq_zero.2 fun hmem => ?_
        obtain ⟨member, hmember, hf⟩ := List.mem_map.1 hmem
        exact hunknown member hmember f hf
      rw [List.map_append, List.count_append, hothers, Nat.zero_add]
      exact List.count_le_length
    · cases f with
      | tabWidth => simp
      | skipTrivia | trackIndentation => exact absurd rfl hf
  refine ⟨hobject _ _ (hlists [("x".toList, "[null]".toList)] ?_) ?_,
    harray 1 _ ?_ ?_, ?_⟩
  · exact List.forall_mem_singleton.2 fun f => by cases f <;> decide
  · exact ⟨["\"x\":[null]".toList, " \"tab\\u005fwidth\":18446744073709551615".toList], _,
      .cons (hmember (by decide) hlist) (.cons ⟨_, hescaped, hwidth,
        " \"tab\\u005fwidth\"".toList, _, ⟨[' '], [], by decide, by decide, by decide⟩,
        padded_refl _, by decide⟩ .nil), .some _ _, padded_refl _⟩
  · intro f hf
    cases f with
    | tabWidth => exact absurd hf (by decide)
    | skipTrivia | trackIndentation => rfl
  · rw [show (Field.all.take 1).map (Field.written c) = ["18446744073709551615".toList] by decide]
    exact ⟨["18446744073709551615".toList], _, .cons (padded_refl _) .nil, .some _ _,
      padded_refl _⟩
  · obtain ⟨e, herror, hnamed⟩ :=
      hrepeated [(Field.tabWidth.name, "18446744073709551615".toList)] [] .tabWidth
        "[null]".toList "\x7b\"tab_width\":18446744073709551615,\"tab_width\":[null]\x7d".toList
        (hlists [] (by simp)) (by simp)
        ⟨["\"tab_width\":18446744073709551615".toList, "\"tab_width\":[null]".toList], _,
          .cons (hmember (by decide) hwidth) (.cons (hmember (by decide) hlist) .nil), .some _ _,
          padded_refl _⟩
    rw [herror, hnamed (by simp)]
    rfl

end Config
end LayoutLexer
