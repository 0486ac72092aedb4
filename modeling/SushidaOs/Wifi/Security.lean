import SushidaOs.Wifi.Scan

/-!
# SushidaOs.Wifi.Security

What `classify_security` depends on (`sushida_os/wifi/nmcli.py`).

The words it looks for have no blank in them, so a search in the whole text is
a search in the tokens, and the answer is a function of the upper-cased tokens
in any order (`classifySecurity_eq`, `modeOf_perm`).
-/

namespace SushidaOs

open PyStr

/-! ## tokens -/

/-- A part without separators is on one side of a separator. -/
theorem infix_append_sep {α : Type} {part front back : List α} {sep : α} (hpart : sep ∉ part) :
    part <:+: front ++ sep :: back ↔ part <:+: front ∨ part <:+: back := by
  constructor
  · rintro ⟨s, t, h⟩
    rcases List.append_eq_append_iff.mp h with ⟨u, hu, -⟩ | ⟨u, hu, hrest⟩
    · exact .inl ⟨s, u, hu.symm⟩
    · cases u with
      | nil => exact .inl ⟨s, [], by rw [hu, List.append_nil, List.append_nil]⟩
      | cons b u =>
          obtain ⟨hb, hback⟩ := List.cons.inj hrest
          rcases List.append_eq_append_iff.mp hu with ⟨v, -, hv⟩ | ⟨v, -, hv⟩
          · exact absurd (by rw [hv, hb]; simp) hpart
          · cases v with
            | nil => exact absurd (by rw [← List.nil_append part, ← hv, hb]; simp) hpart
            | cons c v =>
                refine .inr ⟨v, t, ?_⟩
                rw [hback, (List.cons.inj hv).2]
                rfl
  · rintro (⟨s, t, h⟩ | ⟨s, t, h⟩)
    · exact ⟨s, t ++ sep :: back, by rw [← h]; simp⟩
    · exact ⟨front ++ sep :: s, t, by rw [← h]; simp⟩

namespace PyStr

theorem contains_iff_infix (sub s : PyStr) : contains sub s = true ↔ sub <:+: s := by
  induction s with
  | nil => simp [contains]
  | cons c cs ih =>
      rw [contains, Bool.or_eq_true, ih, List.isPrefixOf_iff_prefix, List.infix_cons_iff]

/-- A token: characters, and none of them a space. -/
def IsToken (t : PyStr) : Prop := t ≠ [] ∧ ∀ c ∈ t, c.isSpace = false

theorem splitAux_append {t : PyStr} (ht : ∀ c ∈ t, c.isSpace = false) (cur rest : PyStr) :
    splitAux cur (t ++ rest) = splitAux (t.reverse ++ cur) rest := by
  induction t generalizing cur with
  | nil => rfl
  | cons c cs ih =>
      rw [List.cons_append, splitAux, if_neg (by simp [ht c List.mem_cons_self]),
        ih fun d hd => ht d (List.mem_cons_of_mem c hd), List.reverse_cons, List.append_assoc,
        List.singleton_append]

theorem isToken_of_mem_splitAux {cur s t : PyStr} (hcur : ∀ c ∈ cur, c.isSpace = false)
    (h : t ∈ splitAux cur s) : IsToken t := by
  induction s generalizing cur with
  | nil =>
      rw [splitAux] at h
      split at h
      · contradiction
      · next hne =>
          rw [List.mem_singleton.mp h]
          exact ⟨by simpa using hne, fun c hc => hcur c (List.mem_reverse.mp hc)⟩
  | cons c cs ih =>
      rw [splitAux] at h
      split at h
      · split at h
        · exact ih (by simp) h
        · next hne =>
            rcases List.mem_cons.mp h with rfl | h
            · exact ⟨by simpa using hne, fun d hd => hcur d (List.mem_reverse.mp hd)⟩
            · exact ih (by simp) h
      · next hc =>
          refine ih (fun d hd => ?_) h
          rcases List.mem_cons.mp hd with rfl | hd
          · simpa using hc
          · exact hcur d hd

/-- `split` gives words without white space. -/
theorem isToken_of_mem_split {s t : PyStr} (h : t ∈ s.split) : IsToken t :=
  isToken_of_mem_splitAux (by simp) h

theorem join_cons (sep t u : PyStr) (ts : List PyStr) :
    join sep (t :: u :: ts) = t ++ sep ++ join sep (u :: ts) := by
  simp only [join, List.intersperse_cons_cons, List.flatten_cons, List.append_assoc]

/-- Tokens joined with blanks are split again. -/
theorem split_join {ts : List PyStr} (h : ∀ t ∈ ts, IsToken t) : (join [0x20] ts).split = ts := by
  induction ts with
  | nil => rfl
  | cons t ts ih =>
      obtain ⟨hne, hsolid⟩ := h t List.mem_cons_self
      have hempty : (t.reverse ++ []).isEmpty = false := by
        rw [List.append_nil, List.isEmpty_reverse]
        exact List.isEmpty_eq_false_iff.mpr hne
      cases ts with
      | nil =>
          have hjoin : join [0x20] [t] = t ++ [] := by simp [join]
          rw [hjoin, split, splitAux_append hsolid, splitAux, hempty]
          simp
      | cons u ts =>
          rw [join_cons, List.append_assoc, split, splitAux_append hsolid, List.singleton_append,
            splitAux, if_pos (by decide), hempty]
          have hrest := ih fun x hx => h x (List.mem_cons_of_mem t hx)
          rw [split] at hrest
          simp [hrest]

/-- A text is blank when it has no tokens. -/
theorem split_eq_nil_iff (s : PyStr) : s.split = [] ↔ ∀ c ∈ s, c.isSpace = true := by
  have hcur : ∀ (cur s : PyStr), cur ≠ [] → splitAux cur s ≠ [] := by
    intro cur s hne
    induction s generalizing cur with
    | nil => simp [splitAux, hne]
    | cons c cs ih =>
        rw [splitAux]
        split
        · simp [hne]
        · exact ih _ (List.cons_ne_nil c cur)
  rw [split]
  induction s with
  | nil => simp [splitAux]
  | cons c cs ih =>
      rw [splitAux, List.forall_mem_cons]
      cases hc : c.isSpace with
      | true => simpa using ih
      | false => simpa using hcur [c] cs (List.cons_ne_nil c [])

/-- A word without blanks stands in one of the tokens. -/
theorem contains_join {w : PyStr} (hne : w ≠ []) (hw : 0x20 ∉ w) (ts : List PyStr) :
    contains w (join [0x20] ts) = ts.any fun t => contains w t := by
  rw [Bool.eq_iff_iff]
  induction ts with
  | nil => simp [ contains_iff_infix, join, hne]
  | cons t ts ih =>
      cases ts with
      | nil => simp [join]
      | cons u ts =>
          rw [join_cons, List.append_assoc, List.singleton_append, contains_iff_infix,
            infix_append_sep hw, ← contains_iff_infix, ← contains_iff_infix, ih]
          simp only [List.any_cons, Bool.or_eq_true]

end PyStr

/-! ## upper case -/

/-- What the Unicode database has for spaces and the hyphen: a space is its own
upper case, no other character becomes a space, and nothing becomes a hyphen. -/
structure UnicodeData.UpperKeeps (U : UnicodeData) : Prop where
  space : ∀ c, c.isSpace = true → U.upper c = [c]
  solid : ∀ c, c.isSpace = false → U.upper c ≠ [] ∧ ∀ d ∈ U.upper c, d.isSpace = false
  hyphen : ∀ c, 0x2d ∈ U.upper c → c = 0x2d

/-- The ASCII letters in upper case. -/
def asciiUpper (c : CodePoint) : CodePoint := if 0x61 ≤ c.val ∧ c.val ≤ 0x7a then c - 0x20 else c

/-- The texts differ in the case of ASCII letters only. -/
def SameButCase (s t : PyStr) : Prop := s.map asciiUpper = t.map asciiUpper

section Upper

variable {U : UnicodeData}

theorem upper_asciiUpper (c : CodePoint) : U.upper (asciiUpper c) = U.upper c := by
  rw [asciiUpper]
  split
  · next h =>
      have hval : (c - 0x20).val = c.val - 0x20 := by
        rw [Fin.sub_val_of_le (by rw [Fin.le_def]; exact Nat.le_trans (by decide) h.1)]
        rfl
      rw [U.upper_ascii c (by omega), if_pos h, U.upper_ascii _ (by omega), if_neg (by omega)]
  · rfl

/-- Upper case forgets the case of ASCII letters. -/
theorem upper_eq_of_sameButCase {s t : PyStr} (h : SameButCase s t) : s.upper U = t.upper U := by
  have hmap : ∀ s : PyStr, upper U (s.map asciiUpper) = s.upper U := by
    intro s
    simp only [PyStr.upper, List.flatMap_map, upper_asciiUpper]
  rw [← hmap s, ← hmap t, h]

variable (hU : U.UpperKeeps)
include hU

/-- The upper-cased text has the upper-cased tokens. -/
theorem splitAux_upper {cur : PyStr} (hcur : ∀ c ∈ cur, c.isSpace = false) (s : PyStr) :
    splitAux ((upper U cur.reverse).reverse) (s.upper U) =
      (splitAux cur s).map fun t => t.upper U := by
  have hempty : ∀ cur : PyStr, (∀ c ∈ cur, c.isSpace = false) →
      ((upper U cur.reverse).reverse).isEmpty = cur.isEmpty := by
    intro cur hcur
    cases cur with
    | nil => rfl
    | cons c cs =>
        have hne := (hU.solid c (hcur c List.mem_cons_self)).1
        simp [PyStr.upper, hne]
  induction s generalizing cur with
  | nil =>
      have hnil : upper U [] = [] := rfl
      rw [hnil, splitAux, splitAux, hempty cur hcur]
      split
      · rfl
      · rw [List.reverse_reverse]
        rfl
  | cons c cs ih =>
      have hupper : upper U (c :: cs) = U.upper c ++ PyStr.upper U cs := by
        simp only [PyStr.upper, List.flatMap_cons]
      rw [hupper]
      cases hc : c.isSpace with
      | true =>
          have hnil := @ih [] (by simp)
          rw [hU.space c hc, List.singleton_append, splitAux, splitAux, if_pos hc, if_pos hc,
            hempty cur hcur]
          split
          · exact hnil
          · rw [List.map_cons, List.reverse_reverse]
            exact congrArg _ hnil
      | false =>
          have hrest := @ih (c :: cur) (List.forall_mem_cons.mpr ⟨hc, hcur⟩)
          have hfront : upper U (c :: cur).reverse = upper U cur.reverse ++ U.upper c := by
            simp [PyStr.upper, List.reverse_cons, List.flatMap_append]
          rw [hfront, List.reverse_append] at hrest
          rw [splitAux_append (hU.solid c hc).2, splitAux, hc, hrest]
          rfl

/-- The words of the upper-cased text are the upper-cased words. -/
theorem split_upper (s : PyStr) : (s.upper U).split = s.split.map fun t => t.upper U :=
  splitAux_upper hU (List.forall_mem_nil _) s

/-- Nothing but two hyphens becomes two hyphens. -/
theorem upper_eq_hyphens_iff (t : PyStr) : t.upper U = lit "--" ↔ t = lit "--" := by
  have hlit : lit "--" = [0x2d, 0x2d] := by decide
  have hhyphen : U.upper 0x2d = [0x2d] := U.upper_ascii 0x2d (by decide)
  rw [hlit]
  constructor
  · intro h
    have hall : ∀ c ∈ t, c = 0x2d := by
      intro c hc
      have hspace : c.isSpace = false := by
        cases hspace : c.isSpace with
        | false => rfl
        | true =>
            have hmem : c ∈ t.upper U := by
              rw [PyStr.upper, List.mem_flatMap]
              exact ⟨c, hc, by rw [hU.space c hspace]; exact List.mem_singleton.mpr rfl⟩
            rw [h] at hmem
            simp only [List.mem_cons, List.not_mem_nil, or_false, or_self] at hmem
            rw [hmem] at hspace
            exact absurd hspace (by decide)
      obtain ⟨d, ds, hupper⟩ := List.exists_cons_of_ne_nil (hU.solid c hspace).1
      have hmem : d ∈ t.upper U := by
        rw [PyStr.upper, List.mem_flatMap]
        exact ⟨c, hc, by rw [hupper]; exact List.mem_cons_self⟩
      rw [h] at hmem
      simp only [List.mem_cons, List.not_mem_nil, or_false, or_self] at hmem
      exact hU.hyphen c (by rw [hupper, hmem]; exact List.mem_cons_self)
    have ht : t = List.replicate t.length 0x2d := List.eq_replicate_iff.mpr ⟨rfl, hall⟩
    have hlength : t.length = 2 := by
      have hupper : ∀ n, (List.replicate n (0x2d : CodePoint)).flatMap U.upper =
          List.replicate n 0x2d := by
        intro n
        induction n with
        | zero => rfl
        | succ n ih => rw [List.replicate_succ, List.flatMap_cons, ih, hhyphen]; rfl
      rw [ht, PyStr.upper, hupper] at h
      simpa using congrArg List.length h
    rw [ht, hlength]
    rfl
  · rintro rfl
    simp [PyStr.upper, hhyphen]

end Upper

/-! ## the classification -/

/-- The words of enterprise networks. -/
def enterpriseWords : List PyStr := [lit "802.1X", lit "802-1X", lit "EAP", lit "ENTERPRISE"]

/-- The tokens of networks with a pre-shared key. -/
def wpaTokens : List PyStr := [lit "WPA", lit "WPA1", lit "WPA2"]

/-- The words that rule such a network out. -/
def otherWords : List PyStr := lit "WEP" :: enterpriseWords ++ [lit "OWE"]

/-- The classification of upper-cased tokens. -/
def modeOf (tokens : List PyStr) : SecurityMode :=
  let has := fun word => tokens.any fun t => contains word t
  if tokens = [] ∨ tokens = [lit "--"] then .openNetwork
  else if has (lit "WEP") then .wep
  else if enterpriseWords.any has then .enterprise
  else if has (lit "OWE") then .owe
  else if tokens.any fun t => t ∈ wpaTokens then .wpaPersonal
  else .unsupported

/-- The order of the words does not matter. -/
theorem modeOf_perm {ts us : List PyStr} (h : ts.Perm us) : modeOf ts = modeOf us := by
  have hany : ∀ p : PyStr → Bool, ts.any p = us.any p := by
    intro p
    rw [Bool.eq_iff_iff, List.any_eq_true, List.any_eq_true]
    simp only [h.mem_iff]
  have hnil : ts = [] ↔ us = [] := ⟨fun ht => (ht ▸ h).nil_eq.symm, fun hu => (hu ▸ h).eq_nil⟩
  have hone : ∀ t, ts = [t] ↔ us = [t] := fun t =>
    ⟨fun ht => List.perm_singleton.mp (ht ▸ h).symm, fun hu => List.perm_singleton.mp (hu ▸ h)⟩
  simp only [modeOf, hany, hnil, hone]

/-- WPA personal: a word for it and none for anything else. -/
theorem modeOf_wpaPersonal_iff (ts : List PyStr) :
    modeOf ts = .wpaPersonal ↔
      (∃ t ∈ ts, t ∈ wpaTokens) ∧ ∀ t ∈ ts, ∀ w ∈ otherWords, contains w t = false := by
  have hnone : (∀ t ∈ ts, ∀ w ∈ otherWords, contains w t = false) ↔
      (ts.any fun t => contains (lit "WEP") t) = false ∧
        (enterpriseWords.any fun w => ts.any fun t => contains w t) = false ∧
        (ts.any fun t => contains (lit "OWE") t) = false := by
    simp only [otherWords, List.cons_append, List.mem_cons, List.mem_append, List.any_eq_false,
      List.not_mem_nil, or_false, Bool.not_eq_true]
    constructor
    · exact fun h => ⟨fun t ht => h t ht _ (.inl rfl),
        fun w hw t ht => h t ht w (.inr (.inl hw)), fun t ht => h t ht _ (.inr (.inr rfl))⟩
    · rintro ⟨hwep, henterprise, howe⟩ t ht w (rfl | hw | rfl)
      · exact hwep t ht
      · exact henterprise w hw t ht
      · exact howe t ht
  rw [hnone]
  simp only [modeOf]
  split
  · next hempty =>
      refine iff_of_false nofun fun h => ?_
      obtain ⟨t, ht, hwpa⟩ := h.1
      rcases hempty with rfl | rfl
      · contradiction
      · rw [List.mem_singleton.mp ht] at hwpa
        revert hwpa
        decide
  split
  · next h => exact iff_of_false nofun fun h' => by rw [h'.2.1] at h; contradiction
  next hwep =>
  split
  · next h => exact iff_of_false nofun fun h' => by rw [h'.2.2.1] at h; contradiction
  next henterprise =>
  split
  · next h => exact iff_of_false nofun fun h' => by rw [h'.2.2.2] at h; contradiction
  next howe =>
  split
  · next h =>
      refine iff_of_true rfl ⟨by simpa using h, ?_⟩
      exact ⟨Bool.not_eq_true _ ▸ hwep, Bool.not_eq_true _ ▸ henterprise,
        Bool.not_eq_true _ ▸ howe⟩
  · next h => exact iff_of_false nofun fun h' => h (by simpa using h'.1)

/-- An open network has no words, or two hyphens. -/
theorem modeOf_open_iff (ts : List PyStr) :
    modeOf ts = .openNetwork ↔ ts = [] ∨ ts = [lit "--"] := by
  simp only [modeOf]
  split
  · next h => exact iff_of_true rfl h
  · next h =>
      refine iff_of_false (fun hmode => ?_) h
      split at hmode
      · contradiction
      split at hmode
      · contradiction
      split at hmode
      · contradiction
      split at hmode
      · contradiction
      · contradiction

/-- **The classification is a function of the upper-cased tokens.** -/
theorem classifySecurity_eq {U : UnicodeData} (hU : U.UpperKeeps) (s : PyStr) :
    classifySecurity U s = modeOf (s.split.map fun t => t.upper U) := by
  have hsplit := split_upper hU s
  generalize hts : (s.split.map fun t => t.upper U) = ts at hsplit
  have htokens : ∀ t ∈ ts, IsToken t := fun t ht => isToken_of_mem_split (hsplit ▸ ht)
  have hjoin := split_join htokens
  have hword : ∀ w : PyStr, w ≠ [] → 0x20 ∉ w →
      contains w (join [0x20] ts) = ts.any fun t => contains w t :=
    fun w hne hw => contains_join hne hw ts
  have hempty : join [0x20] ts = [] ∨ join [0x20] ts = lit "--" ↔ ts = [] ∨ ts = [lit "--"] := by
    have heq : ∀ us : List PyStr, (∀ t ∈ us, IsToken t) →
        (join [0x20] ts = join [0x20] us ↔ ts = us) := by
      intro us hus
      refine ⟨fun h => ?_, fun h => by rw [h]⟩
      rw [← hjoin, h, split_join hus]
    have hnil := heq [] (by simp)
    have hhyphens := heq [lit "--"] (by
      intro t ht
      rw [List.mem_singleton.mp ht]
      exact ⟨by decide, PyStr.forall_of_all (by decide)⟩)
    have hone : join [0x20] [lit "--"] = lit "--" := by simp [join]
    rw [hone] at hhyphens
    exact or_congr hnil hhyphens
  have henterprise : (contains (lit "802.1X") (join [0x20] ts) ||
      contains (lit "802-1X") (join [0x20] ts) || contains (lit "EAP") (join [0x20] ts) ||
      contains (lit "ENTERPRISE") (join [0x20] ts)) =
        enterpriseWords.any fun w => ts.any fun t => contains w t := by
    rw [hword _ (by decide) (by decide), hword _ (by decide) (by decide),
      hword _ (by decide) (by decide), hword _ (by decide) (by decide)]
    simp only [enterpriseWords, List.any_cons, List.any_nil, Bool.or_false, Bool.or_assoc]
  have hlast : ∀ wpa : Bool,
      (if lit "SAE" ∈ ts ∧ wpa = false then SecurityMode.unsupported
        else if wpa = true then .wpaPersonal
        else if lit "WPA3" ∈ ts then .unsupported else .unsupported) =
        if wpa = true then .wpaPersonal else .unsupported := by
    intro wpa
    cases wpa <;> simp
  rw [classifySecurity, hsplit]
  simp only [hjoin]
  rw [hlast, henterprise, hword _ (by decide) (by decide),
    hword (lit "OWE") (by decide) (by decide)]
  simp only [hempty, modeOf]
  rfl

/-- **No downgrade**: the order of the tokens, the whitespace and the case of ASCII
letters do not matter; only blank advertisements and a lone `--` are open, and only
those with a WPA token and no other method get a pre-shared key. -/
theorem classifySecurity_exact {U : UnicodeData} (hU : U.UpperKeeps) :
    (∀ s t : PyStr, s.split.Perm t.split → classifySecurity U s = classifySecurity U t) ∧
      (∀ s t : PyStr, SameButCase s t → classifySecurity U s = classifySecurity U t) ∧
      (∀ s : PyStr, classifySecurity U s = .openNetwork ↔
        (∀ c ∈ s, c.isSpace = true) ∨ s.split = [lit "--"]) ∧
      ∀ s : PyStr, classifySecurity U s = .wpaPersonal ↔
        (∃ t ∈ s.split, t.upper U ∈ wpaTokens) ∧
          ∀ t ∈ s.split, ∀ w ∈ otherWords, contains w (t.upper U) = false := by
  refine ⟨fun s t h => ?_, fun s t h => ?_, fun s => ?_, fun s => ?_⟩
  · rw [classifySecurity_eq hU, classifySecurity_eq hU, modeOf_perm (h.map _)]
  · rw [classifySecurity, classifySecurity, upper_eq_of_sameButCase h]
  · rw [classifySecurity_eq hU, modeOf_open_iff, List.map_eq_nil_iff, ← split_eq_nil_iff]
    refine or_congr_right ?_
    constructor
    · intro h
      obtain ⟨t, ht, hupper⟩ := List.map_eq_singleton_iff.mp h
      rw [ht, (upper_eq_hyphens_iff hU t).mp hupper]
    · intro h
      rw [h, List.map_singleton, (upper_eq_hyphens_iff hU _).mpr rfl]
  · rw [classifySecurity_eq hU, modeOf_wpaPersonal_iff]
    simp only [List.mem_map, exists_exists_and_eq_and, forall_exists_index, and_imp,
      forall_apply_eq_imp_iff₂]

theorem isSpace_of_letter {c : CodePoint} (h : 0x41 ≤ c.val ∧ c.val ≤ 0x7a) :
    c.isSpace = false := by
  simp [CodePoint.isSpace, Fin.ext_iff]
  omega

/-- ASCII letters keep what the classification needs. -/
theorem upperKeeps_ascii : UnicodeData.ascii.UpperKeeps where
  space c hc := by
    refine congrArg (· :: []) (if_neg fun h => ?_)
    rw [isSpace_of_letter ⟨by omega, h.2⟩] at hc
    contradiction
  solid c hc := by
    refine ⟨List.cons_ne_nil _ _, fun d hd => ?_⟩
    rw [List.mem_singleton.mp hd]
    split
    · next h =>
        refine isSpace_of_letter ?_
        rw [Fin.sub_val_of_le (by rw [Fin.le_def]; exact Nat.le_trans (by decide) h.1)]
        have hval : (0x20 : CodePoint).val = 0x20 := rfl
        omega
    · exact hc
  hyphen c hc := by
    have heq := List.mem_singleton.mp hc
    split at heq
    · next h =>
        have hval := congrArg Fin.val heq
        rw [Fin.sub_val_of_le (by rw [Fin.le_def]; exact Nat.le_trans (by decide) h.1)] at hval
        have h20 : (0x20 : CodePoint).val = 0x20 := rfl
        have h2d : (0x2d : CodePoint).val = 0x2d := rfl
        omega
    · exact heq.symm

/-- `wpa2` between blanks is WPA personal. -/
theorem wpa2_personal : classifySecurity .ascii (lit " wpa2 ") = .wpaPersonal :=
  ((classifySecurity_exact upperKeeps_ascii).2.2.2 (lit " wpa2 ")).mpr (by decide)

end SushidaOs
