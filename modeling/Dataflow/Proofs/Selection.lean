import Dataflow.Proofs.Except
import Dataflow.Proofs.Numeral.Radix
import Dataflow.Proofs.OrderedMap
import Dataflow.Selection

/-!
# Reading what was written

Nothing is quoted in the text of a selection. What reading leaves of a key or a value survives writing all
the same: it has no blanks around it and none of the characters that would cut it, and a value is written
so that it is recognised as what it is.
-/

namespace Dataflow

open Text (Trimmed isBlank)

variable {limit : Option Nat}

/-! ## Settings -/

namespace Setting

/-- The text of the setting stays as it is among other options and is read as this setting. -/
structure Stable (limit : Option Nat) (v : Setting) : Prop where
  trimmed : Trimmed isBlank v.plain.toList
  single : ';' ∉ v.plain.toList
  ofText_eq : ofText limit v.plain = v

theorem toLower_of_isDigit {c : Char} (h : c.isDigit = true) : c.toLower = c := by
  have hmax : c.toNat ≤ 57 := (Char.isDigit_iff_toNat.1 h).2
  refine dif_neg fun hupper => ?_
  have hmin : 65 ≤ c.toNat := UInt32.le_iff_toNat_le.1 hupper.1
  omega

theorem toList_toLower (s : String) : s.toLower.toList = s.toList.map Char.toLower := String.toList_map

/-- A numeral has a digit, which no case changes. -/
theorem toLower_toString_ne (n : Int) {s : String} (hs : s.toList.any Char.isDigit = false) :
    (toString n).toLower ≠ s := by
  rintro rfl
  obtain ⟨c, hc⟩ := List.exists_mem_of_ne_nil _ (Nat.toDigits_ne_nil (b := 10) (n := n.natAbs))
  have hdigit : c.isDigit = true := Numeral.isDigit_toDigits hc
  have hmem : c ∈ (toString n).toLower.toList := by
    rw [toList_toLower, Numeral.toList_toString]
    exact List.mem_map.2 ⟨c, List.mem_append_right _ hc, toLower_of_isDigit hdigit⟩
  exact List.any_eq_false.1 hs c hmem hdigit

theorem stable_bool (b : Bool) : Stable limit (.bool b) := by
  cases b with
  | true => exact ⟨.of_any (by decide +kernel), by decide +kernel, if_pos (by decide +kernel)⟩
  | false =>
      refine ⟨.of_any (by decide +kernel), by decide +kernel, ?_⟩
      rw [ofText, if_neg (by decide +kernel), if_pos (by decide +kernel)]

theorem stable_int {n : Int} (h : Numeral.fits limit n = true) (hlimit : limit ≠ some 0) :
    Stable limit (.int n) where
  trimmed := .of_graphic fun _ => Numeral.graphic_of_mem
  single hc := by
    cases Numeral.eq_minus_or_isDigit hc with
    | inl h => cases h
    | inr h => cases h
  ofText_eq := by
    rw [plain, ofText, if_neg (toLower_toString_ne n (by decide +kernel)),
      if_neg (toLower_toString_ne n (by decide +kernel)), Numeral.parseLiteral?_toString h hlimit]

theorem stable_ofText {cs : List Char} (hlimit : limit ≠ some 0) (htrimmed : Trimmed isBlank cs)
    (hsingle : ';' ∉ cs) (h : (ofText limit (String.ofList cs)).fits limit = true) :
    Stable limit (ofText limit (String.ofList cs)) := by
  cases hv : ofText limit (String.ofList cs) with
  | bool b => exact stable_bool b
  | int n => exact stable_int (by rw [hv] at h; exact h) hlimit
  | text s =>
      have hs : s = String.ofList cs := by
        unfold ofText at hv
        split at hv
        · cases hv
        · split at hv
          · cases hv
          · split at hv
            · cases hv
            · exact (Setting.text.inj hv).symm
      subst hs
      exact ⟨by simpa [plain] using htrimmed, by simpa [plain] using hsingle, hv⟩

end Setting

/-! ## Options -/

namespace Selection

/-- The text stays as it is as the key of an option among others. -/
structure StableKey (key : String) : Prop where
  ne_nil : key.toList ≠ []
  trimmed : Trimmed isBlank key.toList
  uncut : '=' ∉ key.toList
  single : ';' ∉ key.toList

/-- The option stays as it is among other options and is read as this option. -/
structure StableOption (limit : Option Nat) (p : String × Setting) : Prop where
  key : StableKey p.1
  value : p.2.Stable limit

/-- An option as it is written. -/
def item (p : String × Setting) : List Char := p.1.toList ++ '=' :: p.2.plain.toList

section

variable {p : String × Setting} (h : StableOption limit p)
include h

theorem StableOption.item_single : ';' ∉ item p := by
  simp only [item, List.mem_append, List.mem_cons, not_or]
  exact ⟨h.key.single, by decide, h.value.single⟩

theorem StableOption.item_trimmed : Trimmed isBlank (item p) :=
  h.key.trimmed.append_cons (by decide) h.value.trimmed

theorem StableOption.option?_item : option? limit (item p) = some p := by
  have hcut : Text.cut '=' (item p) = (p.1.toList, some p.2.plain.toList) :=
    Text.cut_eq_some.2 ⟨rfl, h.key.uncut⟩
  unfold option?
  rw [hcut]
  simp only [bare, h.key.trimmed.trimChars_eq, h.value.trimmed.trimChars_eq, String.ofList_toList,
    h.value.ofText_eq, if_neg h.key.ne_nil]

end

/-- Written options are set again. -/
theorem setAll_items {options : OrderedMap String Setting} {id : String} {l : List (String × Setting)}
    (h : ∀ p ∈ l, StableOption limit p) :
    setAll limit id options (l.map item) = .ok (l.foldl (fun m p => m.insert p.1 p.2) options) := by
  induction l generalizing options with
  | nil => rfl
  | cons p l ih =>
      have hp : StableOption limit p := h p List.mem_cons_self
      have hne : item p ≠ [] := List.append_ne_nil_of_right_ne_nil _ (List.cons_ne_nil _ _)
      simp only [List.map_cons, setAll, bare, hp.item_trimmed.trimChars_eq, if_neg hne, hp.option?_item]
      exact ih fun q hq => h q (List.mem_cons_of_mem p hq)

/-! ### What is read -/

/-- The option was read from an item without semicolons. -/
structure ReadOption (limit : Option Nat) (p : String × Setting) : Prop where
  key : StableKey p.1
  value : ∃ cs, Trimmed isBlank cs ∧ ';' ∉ cs ∧ p.2 = .ofText limit (String.ofList cs)

theorem ReadOption.stable {p : String × Setting} (h : ReadOption limit p) (hlimit : limit ≠ some 0)
    (hfits : p.2.fits limit = true) : StableOption limit p where
  key := h.key
  value := by
    obtain ⟨cs, htrimmed, hsingle, hv⟩ := h.value
    rw [hv] at hfits ⊢
    exact Setting.stable_ofText hlimit htrimmed hsingle hfits

theorem readOption_of_option? {cs : List Char} {p : String × Setting} (hsingle : ';' ∉ cs)
    (h : option? limit cs = some p) : ReadOption limit p := by
  unfold option? at h
  split at h
  · next key value hcut =>
      obtain ⟨rfl, huncut⟩ := Text.cut_eq_some.1 hcut
      simp only [List.mem_append, List.mem_cons, not_or] at hsingle
      split at h
      · cases h
      · next hne =>
          cases h
          refine ⟨⟨?_, ?_, ?_, ?_⟩, bare value, ?_, ?_, rfl⟩
          · rwa [String.toList_ofList]
          · rw [String.toList_ofList]
            exact Text.trimmed_trimChars isBlank key
          · rw [String.toList_ofList]
            exact fun hmem => huncut (Text.mem_of_mem_trimChars hmem)
          · rw [String.toList_ofList]
            exact fun hmem => hsingle.1 (Text.mem_of_mem_trimChars hmem)
          · exact Text.trimmed_trimChars isBlank value
          · exact fun hmem => hsingle.2.2 (Text.mem_of_mem_trimChars hmem)
  · cases h

theorem readOption_of_setAll {items : List (List Char)} {id : String} {options set : OrderedMap String Setting}
    (hitems : ∀ cs ∈ items, ';' ∉ cs) (hread : ∀ p ∈ options.toList, ReadOption limit p)
    (h : setAll limit id options items = .ok set) : ∀ p ∈ set.toList, ReadOption limit p := by
  induction items generalizing options with
  | nil =>
      cases h
      exact hread
  | cons cs items ih =>
      have hrest : ∀ ds ∈ items, ';' ∉ ds := fun ds hds => hitems ds (List.mem_cons_of_mem cs hds)
      simp only [setAll] at h
      split at h
      · exact ih hrest hread h
      · split at h
        · next key value hoption =>
            have hsingle : ';' ∉ bare cs := fun hmem =>
              hitems cs List.mem_cons_self (Text.mem_of_mem_trimChars hmem)
            refine ih hrest (fun p hp => ?_) h
            cases OrderedMap.mem_insertIn hp with
            | inl hp => exact hp ▸ readOption_of_option? hsingle hoption
            | inr hp => exact hread p hp
        · cases h

/-! ## Ids -/

theorem isIdPart_of_isId {cs : List Char} (h : isId cs = true) : ∀ c ∈ cs, isIdPart c = true := by
  cases cs with
  | nil => exact nofun
  | cons d ds =>
      simp only [isId, Bool.and_eq_true, List.all_eq_true] at h
      intro c hc
      cases hc with
      | head =>
          have hstart := h.1
          simp only [isIdStart, Bool.or_eq_true] at hstart
          simp only [isIdPart, Char.isAlphanum, Bool.or_eq_true]
          tauto
      | tail _ hc => exact h.2 c hc

theorem graphic_of_isIdPart {c : Char} (h : isIdPart c = true) : 0x20 < c.toNat ∧ c.toNat < 0x7f := by
  have hkinds : (c.isUpper || c.isLower || c.isDigit || c == '_' || c == '.' || c == '-') = true := h
  simp only [Bool.or_eq_true, beq_iff_eq] at hkinds
  obtain ((((hupper | hlower) | hdigit) | rfl) | rfl) | rfl := hkinds
  · obtain ⟨hmin, hmax⟩ := of_decide_eq_true (p := 'A'.val ≤ c.val ∧ c.val ≤ 'Z'.val) hupper
    exact ⟨Nat.lt_of_lt_of_le (by decide) (UInt32.le_iff_toNat_le.1 hmin),
      Nat.lt_of_le_of_lt (UInt32.le_iff_toNat_le.1 hmax) (by decide)⟩
  · obtain ⟨hmin, hmax⟩ := (Bool.and_eq_true _ _).mp hlower
    exact ⟨Nat.lt_of_lt_of_le (by decide) (UInt32.le_iff_toNat_le.1 (of_decide_eq_true hmin)),
      Nat.lt_of_le_of_lt (UInt32.le_iff_toNat_le.1 (of_decide_eq_true hmax)) (by decide)⟩
  · obtain ⟨hmin, hmax⟩ := Char.isDigit_iff_toNat.1 hdigit
    exact ⟨Nat.lt_of_lt_of_le (by decide) hmin, Nat.lt_of_le_of_lt hmax (by decide)⟩
  · decide
  · decide
  · decide

theorem trimmed_of_isId {cs : List Char} (h : isId cs = true) : Trimmed isBlank cs :=
  .of_graphic fun c hc => graphic_of_isIdPart (isIdPart_of_isId h c hc)

theorem notMem_of_isId {cs : List Char} (h : isId cs = true) : ':' ∉ cs :=
  fun hc => absurd (isIdPart_of_isId h _ hc) (by decide)

/-! ## Selections -/

/-- The selection was read. -/
structure Read (limit : Option Nat) (s : Selection) : Prop where
  id : isId s.id.toList = true
  options : ∀ p ∈ s.options.toList, ReadOption limit p

theorem read_eq_ok {t : String} {s : Selection} {head : List Char} {rest : Option (List Char)}
    (hcut : Text.cut ':' (bare t.toList) = (head, rest)) :
    read limit t = .ok s ↔ isId (bare head) = true ∧ s.id = String.ofList (bare head) ∧
      setAll limit s.id .empty (Text.pieces ';' (rest.getD [])) = .ok s.options := by
  obtain ⟨id, options⟩ := s
  simp only [read, hcut]
  split
  · next hid =>
      cases hset : setAll limit (String.ofList (bare head)) .empty (Text.pieces ';' (rest.getD [])) with
      | error e =>
          simp only [hid, true_and]
          constructor
          · nofun
          · rintro ⟨rfl, h⟩
            rw [hset] at h
            cases h
      | ok read =>
          simp only [hid, true_and]
          constructor
          · intro h
            have hmk : (⟨String.ofList (bare head), read⟩ : Selection) = ⟨id, options⟩ := Except.ok.inj h
            cases hmk
            exact ⟨rfl, hset⟩
          · rintro ⟨rfl, h⟩
            rw [hset] at h
            cases h
            rfl
  · next hid => simp [hid]

theorem read_of_read {t : String} {s : Selection} (h : read limit t = .ok s) : Read limit s := by
  cases hcut : Text.cut ':' (bare t.toList) with
  | mk head rest =>
      obtain ⟨hid, hs, hset⟩ := (read_eq_ok hcut).1 h
      refine ⟨by rwa [hs, String.toList_ofList], ?_⟩
      exact readOption_of_setAll (fun _ hcs => Text.notMem_of_mem_pieces hcs)
        (fun _ hp => absurd hp List.not_mem_nil) hset

theorem toList_item (p : String × Setting) : (p.1 ++ "=" ++ p.2.plain).toList = item p := by
  simp [item, String.toList_append]

theorem toList_text_cons {s : Selection} {p : String × Setting} {l : List (String × Setting)}
    (h : s.options.toList = p :: l) :
    s.text.toList = s.id.toList ++ ':' :: [';'].intercalate ((p :: l).map item) := by
  have hitems : ((p :: l).map fun q => q.1 ++ "=" ++ q.2.plain).map String.toList = (p :: l).map item := by
    rw [List.map_map]
    exact List.map_congr_left fun q _ => toList_item q
  have htext : s.text = s.id ++ ":" ++ ";".intercalate ((p :: l).map fun q => q.1 ++ "=" ++ q.2.plain) := by
    unfold text
    rw [h]
  rw [htext, String.toList_append, String.toList_append, String.toList_intercalate, hitems, List.append_assoc]
  rfl

/-- No part of the text is cut, split or trimmed otherwise than the options were joined. -/
theorem read_text_of_stable {s : Selection} (hid : isId s.id.toList = true)
    (h : ∀ p ∈ s.options.toList, StableOption limit p) : read limit s.text = .ok s := by
  have htrimmed : Trimmed isBlank s.id.toList := trimmed_of_isId hid
  have hbare : bare s.id.toList = s.id.toList := htrimmed.trimChars_eq
  cases hoptions : s.options.toList with
  | nil =>
      have htext : s.text = s.id := by
        unfold text
        rw [hoptions]
      have hcut : Text.cut ':' (bare s.text.toList) = (s.id.toList, none) := by
        rw [htext, hbare, Text.cut_of_notMem (notMem_of_isId hid)]
      refine (read_eq_ok hcut).2 ⟨by rwa [hbare], by rw [hbare, String.ofList_toList], ?_⟩
      exact congrArg Except.ok (OrderedMap.ext hoptions.symm)
  | cons p l =>
      rw [hoptions] at h
      have hitem : ∀ cs ∈ (p :: l).map item, Trimmed isBlank cs ∧ ';' ∉ cs := by
        intro cs hcs
        obtain ⟨q, hq, rfl⟩ := List.mem_map.1 hcs
        exact ⟨(h q hq).item_trimmed, (h q hq).item_single⟩
      have htext : Trimmed isBlank s.text.toList := by
        rw [toList_text_cons hoptions]
        exact htrimmed.append_cons (by decide) (.intercalate (fun cs hcs => (hitem cs hcs).1) (by decide))
      have hcut : Text.cut ':' (bare s.text.toList) =
          (s.id.toList, some ([';'].intercalate ((p :: l).map item))) := by
        rw [bare, htext.trimChars_eq, toList_text_cons hoptions]
        exact Text.cut_eq_some.2 ⟨rfl, notMem_of_isId hid⟩
      have hpieces : Text.pieces ';' ([';'].intercalate ((p :: l).map item)) = (p :: l).map item :=
        Text.pieces_intercalate (fun cs hcs => (hitem cs hcs).2) (List.cons_ne_nil _ _)
      have hset : (p :: l).foldl (fun m q => m.insert q.1 q.2) .empty = s.options := by
        refine OrderedMap.ext ((OrderedMap.toList_ofList ?_).trans hoptions.symm)
        rw [← hoptions]
        exact s.options.nodup
      refine (read_eq_ok hcut).2 ⟨by rwa [hbare], by rw [hbare, String.ofList_toList], ?_⟩
      rw [Option.getD_some, hpieces, setAll_items h, hset]

theorem Read.read_written {s : Selection} (h : Read limit s) (hlimit : limit ≠ some 0)
    (hfits : ∀ p ∈ s.options.toList, p.2.fits limit = true) : read limit s.text = .ok s :=
  read_text_of_stable h.id fun p hp => (h.options p hp).stable hlimit (hfits p hp)

/-- Every selection that is read is written as a text that is read as the same selection. Where the
digits of decimal numerals are limited this holds of the selections that can be written. -/
theorem read_text {t : String} {s : Selection} :
    (read none t = .ok s → read none s.text = .ok s) ∧
      (parse t = .ok s → s.fits = true → parse s.text = .ok s) := by
  constructor
  · intro h
    refine (read_of_read h).read_written nofun fun p hp => ?_
    cases p.2 with
    | bool b => rfl
    | int n => rfl
    | text v => rfl
  · intro h hfits
    exact (read_of_read h).read_written nofun (List.all_eq_true.1 hfits)

theorem read_text_mixed :
    ∃ s, read none "  constprop : a = 0x1F ;; b=TRUE;a=1_0; c = x=y:z ;d=;e=007;f=-0" = .ok s ∧
      s.text = "constprop:a=10;b=True;c=x=y:z;d=;e=007;f=0" ∧ read none s.text = .ok s ∧
      ∃ s', parse "p: k = -0b1_01 ;m=\u2003" = .ok s' ∧ s'.fits = true ∧ s'.text = "p:k=-5;m=" ∧
        parse s'.text = .ok s' := by
  have hread : (read none "  constprop : a = 0x1F ;; b=TRUE;a=1_0; c = x=y:z ;d=;e=007;f=-0").toOption.map
      text = some "constprop:a=10;b=True;c=x=y:z;d=;e=007;f=0" := by decide +kernel
  have hparse : (parse "p: k = -0b1_01 ;m=\u2003").toOption.map (fun s => (s.fits, s.text)) =
      some (true, "p:k=-5;m=") := by decide +kernel
  obtain ⟨s, hs, htext⟩ := exists_ok_of_toOption hread
  obtain ⟨s', hs', hparsed⟩ := exists_ok_of_toOption hparse
  obtain ⟨hfits, htext'⟩ := Prod.mk.inj hparsed
  exact ⟨s, hs, htext, read_text.1 hs, s', hs', hfits, htext', read_text.2 hs' hfits⟩

/-! ## Options that are too long to be written -/

/-- Constant propagation with a power of sixteen as an option. -/
def power (n : Nat) : Selection := ⟨"constprop", .ofList [("k", .int (16 ^ n))]⟩

/-- The power is given in radix sixteen. -/
def powerText (n : Nat) : String := "constprop:k=" ++ Numeral.powerText n

theorem ofText_powerText (n : Nat) : Setting.ofText limit (Numeral.powerText n) = .int (16 ^ n) := by
  have hne : ∀ t : String, t.toList.head? ≠ some '0' → (Numeral.powerText n).toLower ≠ t := by
    rintro t ht rfl
    rw [Setting.toList_toLower, Numeral.toList_powerText] at ht
    exact ht rfl
  rw [Setting.ofText, if_neg (hne _ (by decide)), if_neg (hne _ (by decide)), Numeral.parseLiteral?_powerText]

theorem toList_powerText (n : Nat) : (powerText n).toList =
    "constprop".toList ++ ':' :: 'k' :: '=' :: (Numeral.powerText n).toList := by
  rw [powerText, String.toList_append]
  rfl

theorem option?_powerText (n : Nat) :
    option? limit ('k' :: '=' :: (Numeral.powerText n).toList) = some ("k", .int (16 ^ n)) := by
  have hcut : Text.cut '=' ('k' :: '=' :: (Numeral.powerText n).toList) =
      (['k'], some (Numeral.powerText n).toList) := Text.cut_eq_some.2 ⟨rfl, by decide⟩
  have hvalue : bare (Numeral.powerText n).toList = (Numeral.powerText n).toList :=
    (Numeral.trimmed_powerText n).trimChars_eq
  unfold option?
  rw [hcut]
  simp only [hvalue, String.ofList_toList, ofText_powerText]
  rfl

theorem parse_powerText (n : Nat) : parse (powerText n) = .ok (power n) := by
  have hid : Trimmed isBlank "constprop".toList := .of_any (by decide +kernel)
  have hkey : Trimmed isBlank ['k'] := .of_any (by decide)
  have hitem : Trimmed isBlank ('k' :: '=' :: (Numeral.powerText n).toList) :=
    hkey.append_cons (by decide) (Numeral.trimmed_powerText n)
  have hbare : bare (powerText n).toList = (powerText n).toList := by
    rw [toList_powerText]
    exact (hid.append_cons (by decide) hitem).trimChars_eq
  have hcut : Text.cut ':' (bare (powerText n).toList) =
      ("constprop".toList, some ('k' :: '=' :: (Numeral.powerText n).toList)) :=
    Text.cut_eq_some.2 ⟨hbare.trans (toList_powerText n), by decide⟩
  have hsingle : ';' ∉ 'k' :: '=' :: (Numeral.powerText n).toList := by
    simp [Numeral.toList_powerText, List.mem_replicate]
  have hname : bare "constprop".toList = "constprop".toList := hid.trimChars_eq
  refine (read_eq_ok hcut).2 ⟨by decide, by rw [hname, String.ofList_toList]; rfl, ?_⟩
  rw [Option.getD_some, Text.pieces_of_notMem hsingle]
  simp only [setAll, bare, hitem.trimChars_eq, if_neg (List.cons_ne_nil _ _)]
  rw [option?_powerText]
  rfl

theorem not_fits_power {n : Nat} (h : 4300 ≤ 43 * n) : (power (36 * n)).fits = false := by
  have hfits : Setting.fits Numeral.digitLimit (.int (16 ^ (36 * n))) = false := by
    rw [Setting.fits, Numeral.digitLimit]
    exact Numeral.not_fits_pow h
  refine List.all_eq_false.2 ⟨("k", .int (16 ^ (36 * n))), List.mem_cons_self, ?_⟩
  rw [hfits]
  exact Bool.false_ne_true

end Selection

end Dataflow
