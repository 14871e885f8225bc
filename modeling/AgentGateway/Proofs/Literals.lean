import AgentGateway.Command.Grammar
import AgentGateway.Json.Writer
import AgentGateway.Proofs.Blanks
import AgentGateway.Proofs.Store

namespace AgentGateway

namespace Json

variable {cs body rest s piece : List Char} {c : Char} {n : Nat}

inductive Hex : List Char → Nat → Prop
  | digits {a b c d : Char} {i j k l : Nat} : hexValue? a = some i → hexValue? b = some j →
      hexValue? c = some k → hexValue? d = some l →
      Hex [a, b, c, d] (((i * 16 + j) * 16 + k) * 16 + l)

inductive Codes : List Char → Char → Prop
  | unit {ds : List Char} {n : Nat} : Hex ds n → n < 0xD800 ∨ 0xDFFF < n → Codes ds (Char.ofNat n)
  | pair {ds ds' : List Char} {high low : Nat} : Hex ds high → Hex ds' low →
      0xD800 ≤ high → high < 0xDC00 → 0xDC00 ≤ low → low ≤ 0xDFFF →
      Codes (ds ++ '\\' :: 'u' :: ds')
        (Char.ofNat ((high - 0xD800) * 0x400 + (low - 0xDC00) + 0x10000))

inductive Stands : List Char → Char → Prop
  | plain {c : Char} : c ≠ '"' → c ≠ '\\' → 32 ≤ c.toNat → Stands [c] c
  | letter {e c : Char} : simpleEscape? e = some c → Stands ['\\', e] c
  | codes {ds : List Char} {c : Char} : Codes ds c → Stands ('\\' :: 'u' :: ds) c

inductive Spells : List Char → List Char → Prop
  | nil : Spells [] []
  | cons {piece body s : List Char} {c : Char} : Stands piece c → Spells body s →
      Spells (piece ++ body) (c :: s)

def Literal (cs s : List Char) : Prop := ∃ body, Spells body s ∧ cs = '"' :: (body ++ ['"'])

theorem readUnit_eq_ok_iff :
    readUnit cs = .ok (n, rest) ↔ ∃ ds, Hex ds n ∧ cs = ds ++ rest := by
  constructor
  · intro h
    unfold readUnit at h
    split at h
    · split at h <;> cases h
      rename_i ha hb hc hd
      exact ⟨_, .digits ha hb hc hd, rfl⟩
    · cases h
  · rintro ⟨_, ⟨ha, hb, hc, hd⟩, rfl⟩
    simp [readUnit, ha, hb, hc, hd]

theorem readUnicode_eq_ok_iff :
    readUnicode cs = .ok (c, rest) ↔ ∃ ds, Codes ds c ∧ cs = ds ++ rest := by
  constructor
  · intro h
    obtain ⟨⟨unit, rest'⟩, hunit, hread⟩ := bind_eq_ok.mp h
    clear h
    obtain ⟨ds, hds, rfl⟩ := readUnit_eq_ok_iff.mp hunit
    dsimp only at hread
    split at hread
    · rename_i hout
      cases hread
      exact ⟨ds, .unit hds hout, rfl⟩
    · rename_i hin
      split at hread
      · cases hread
      · rename_i hhigh
        split at hread
        · obtain ⟨⟨low, rest'⟩, hlow, hpair⟩ := bind_eq_ok.mp hread
          obtain ⟨ds', hds', rfl⟩ := readUnit_eq_ok_iff.mp hlow
          dsimp only at hpair
          split at hpair
          · rename_i hbounds
            obtain ⟨rfl, rfl⟩ := Prod.mk.inj (Except.ok.inj hpair)
            refine ⟨ds ++ '\\' :: 'u' :: ds', ?_, by simp⟩
            exact .pair hds hds' (by omega) (by omega) hbounds.1 hbounds.2
          · cases hpair
        · cases hread
  · rintro ⟨ds, hds, rfl⟩
    cases hds with
    | unit hn hout =>
        exact bind_eq_ok.mpr ⟨_, readUnit_eq_ok_iff.mpr ⟨ds, hn, rfl⟩, if_pos hout⟩
    | @pair ds ds' high low hhigh hlow h₁ h₂ h₃ h₄ =>
        refine bind_eq_ok.mpr ⟨(high, '\\' :: 'u' :: (ds' ++ rest)), ?_, ?_⟩
        · exact readUnit_eq_ok_iff.mpr ⟨ds, hhigh, by simp⟩
        · dsimp only
          rw [if_neg (by omega), if_neg (by omega)]
          exact bind_eq_ok.mpr ⟨_, readUnit_eq_ok_iff.mpr ⟨ds', hlow, rfl⟩, if_pos ⟨h₃, h₄⟩⟩

theorem Stands.length_pos (h : Stands piece c) : 0 < piece.length := by
  cases h <;> exact Nat.succ_pos _

theorem Stands.readQuoted_append {fuel : Nat} (h : Stands piece c) :
    readQuoted (fuel + 1) (piece ++ cs) = (do
      let (s, rest) ← readQuoted fuel cs
      .ok (c :: s, rest)) := by
  cases h with
  | plain hquote hslash hc =>
      rw [List.singleton_append, readQuoted, if_neg (by omega)]
      all_goals simp_all
  | @letter e c he =>
      have hu : e ≠ 'u' := by
        rintro rfl
        cases he
      rw [List.cons_append, List.singleton_append, readQuoted, he]
      all_goals simp_all
  | @codes ds c hds =>
      rw [List.cons_append, List.cons_append, readQuoted,
        readUnicode_eq_ok_iff.mpr ⟨ds, hds, rfl⟩]
      rfl

theorem readQuoted_cons {fuel : Nat} (h : readQuoted (fuel + 1) cs = .ok (s, rest)) :
    cs = '"' :: rest ∧ s = [] ∨
      ∃ piece c cs' s', Stands piece c ∧ readQuoted fuel cs' = .ok (s', rest) ∧
        cs = piece ++ cs' ∧ s = c :: s' := by
  unfold readQuoted at h
  split at h
  · cases h
  · cases h
  · cases h
    exact .inl ⟨rfl, rfl⟩
  · rename_i heq
    cases heq
    obtain ⟨⟨c, cs'⟩, hc, hbody⟩ := bind_eq_ok.mp h
    obtain ⟨⟨s', rest⟩, hs, hend⟩ := bind_eq_ok.mp hbody
    obtain ⟨ds, hds, hcs⟩ := readUnicode_eq_ok_iff.mp hc
    cases hend
    exact .inr ⟨'\\' :: 'u' :: ds, c, cs', s', .codes hds, hs, by simp [hcs], rfl⟩
  · cases h
  · rename_i heq
    cases heq
    split at h
    · cases h
    · rename_i he
      obtain ⟨⟨s', rest⟩, hs, hend⟩ := bind_eq_ok.mp h
      cases hend
      exact .inr ⟨_, _, _, s', .letter he, hs, rfl, rfl⟩
  · rename_i rest' hquote hunits hslash hletter heq
    cases heq
    split at h
    · cases h
    · rename_i hcontrol
      obtain ⟨⟨s', rest⟩, hs, hend⟩ := bind_eq_ok.mp h
      cases hend
      refine .inr ⟨_, _, _, s', .plain hquote ?_ (by omega), hs, rfl, rfl⟩
      intro hc
      cases rest' with
      | nil => exact hslash hc rfl
      | cons e rest' => exact hletter e rest' hc rfl

theorem Spells.readQuoted {fuel : Nat} (h : Spells body s) (hfuel : body.length < fuel) :
    readQuoted fuel (body ++ '"' :: rest) = .ok (s, rest) := by
  induction h generalizing fuel with
  | nil =>
      obtain ⟨fuel, rfl⟩ := Nat.exists_eq_add_one_of_ne_zero (Nat.ne_of_gt hfuel)
      rfl
  | @cons piece body s c hpiece hbody ih =>
      obtain ⟨fuel, rfl⟩ := Nat.exists_eq_add_one_of_ne_zero (Nat.ne_zero_of_lt hfuel)
      have hlength : body.length < fuel := by
        have hpos := hpiece.length_pos
        rw [List.length_append] at hfuel
        omega
      rw [List.append_assoc, hpiece.readQuoted_append, ih hlength]
      rfl

theorem spells_of_readQuoted {fuel : Nat} (h : readQuoted fuel cs = .ok (s, rest)) :
    ∃ body, Spells body s ∧ cs = body ++ '"' :: rest := by
  induction fuel generalizing cs s with
  | zero =>
      unfold Json.readQuoted at h
      cases h
  | succ fuel ih =>
      rcases readQuoted_cons h with ⟨rfl, rfl⟩ | ⟨piece, c, cs', s', hpiece, hs, rfl, rfl⟩
      · exact ⟨[], .nil, rfl⟩
      · obtain ⟨body, hbody, rfl⟩ := ih hs
        exact ⟨piece ++ body, .cons hpiece hbody, by simp⟩

theorem Spells.unique {s' : List Char} (h : Spells body s) (h' : Spells body s') : s = s' := by
  have hread : Json.readQuoted (body.length + 1) (body ++ '"' :: []) = .ok (s, []) :=
    h.readQuoted (Nat.lt_succ_self _)
  rw [h'.readQuoted (Nat.lt_succ_self _)] at hread
  cases hread
  rfl

theorem Literal.unique {s' : List Char} (h : Literal cs s) (h' : Literal cs s') : s = s' := by
  obtain ⟨body, hbody, rfl⟩ := h
  obtain ⟨body', hbody', heq⟩ := h'
  obtain rfl : body = body' := by simpa using heq
  exact hbody.unique hbody'

theorem Hex.notMem_newline {ds : List Char} (h : Hex ds n) : '\n' ∉ ds := by
  obtain ⟨ha, hb, hc, hd⟩ := h
  simp only [List.mem_cons, List.not_mem_nil, or_false, not_or]
  refine ⟨?_, ?_, ?_, ?_⟩ <;> rintro rfl
  · cases ha
  · cases hb
  · cases hc
  · cases hd

theorem Stands.notMem_newline (h : Stands piece c) : '\n' ∉ piece := by
  cases h with
  | plain hquote hslash hc =>
      rw [List.mem_singleton]
      rintro rfl
      exact absurd hc (by decide)
  | letter he =>
      intro hmem
      obtain rfl : '\n' = _ := by simpa using hmem
      cases he
  | codes hds =>
      cases hds with
      | unit hn => simp [hn.notMem_newline]
      | pair hhigh hlow => simp [hhigh.notMem_newline, hlow.notMem_newline]

theorem Spells.notMem_newline (h : Spells body s) : '\n' ∉ body := by
  induction h with
  | nil => exact List.not_mem_nil
  | cons hpiece hbody ih =>
      intro hmem
      exact (List.mem_append.mp hmem).elim hpiece.notMem_newline ih

theorem Literal.notMem_newline (h : Literal cs s) : '\n' ∉ cs := by
  obtain ⟨body, hbody, rfl⟩ := h
  simp [hbody.notMem_newline]

theorem Literal.isTrimmed (h : Literal cs s) : Text.IsTrimmed cs := by
  obtain ⟨body, -, rfl⟩ := h
  exact Text.isTrimmed_of_ends rfl rfl

theorem hexValue?_hexDigit (n : Nat) : hexValue? (hexDigit n) = some (n % 16) := by
  have hall : ∀ k < 16, hexValue? (Nat.digitChar k) = some k := by decide
  exact hall (n % 16) (Nat.mod_lt n (by decide))

theorem stands_escapeChar (c : Char) : Stands (escapeChar c) c := by
  have hletter {e d : Char} (hd : simpleEscape? e = some d) (hc : c = d) :
      Stands ['\\', e] c := hc ▸ .letter hd
  unfold escapeChar
  split
  · exact hletter rfl ‹_›
  split
  · exact hletter rfl ‹_›
  split
  · exact hletter rfl ‹_›
  split
  · exact hletter rfl ‹_›
  split
  · exact hletter rfl ‹_›
  split
  · exact hletter rfl ‹_›
  split
  · exact hletter rfl ‹_›
  split
  · have hdigits : Hex ['0', '0', hexDigit (c.toNat / 16), hexDigit c.toNat]
        (((0 * 16 + 0) * 16 + c.toNat / 16 % 16) * 16 + c.toNat % 16) :=
      .digits rfl rfl (hexValue?_hexDigit _) (hexValue?_hexDigit _)
    have hunit := Codes.unit hdigits (by omega)
    rw [show ((0 * 16 + 0) * 16 + c.toNat / 16 % 16) * 16 + c.toNat % 16 = c.toNat by omega,
      Char.ofNat_toNat] at hunit
    exact .codes hunit
  · rename_i hquote hslash _ _ _ _ _ hcontrol
    exact .plain hquote hslash (by omega)

theorem spells_flatMap (s : List Char) : Spells (s.flatMap escapeChar) s := by
  induction s with
  | nil => exact .nil
  | cons c s ih => exact .cons (stands_escapeChar c) ih

theorem literal_quoteChars (s : List Char) : Literal (quoteChars s) s :=
  ⟨s.flatMap escapeChar, spells_flatMap s, rfl⟩

end Json

namespace Command

open Json (Literal)

variable {cs s : List Char}

/-- What an argument denotes: the string of a literal, or else itself. -/
inductive Denotes : List Char → List Char → Prop
  | literal {cs s : List Char} : Literal cs s → Denotes cs s
  | verbatim {cs : List Char} : (∀ s, ¬ Literal cs s) → Denotes cs cs

theorem Denotes.unique {s' : List Char} (h : Denotes cs s) (h' : Denotes cs s') : s = s' := by
  cases h with
  | literal hs =>
      cases h' with
      | literal hs' => exact hs.unique hs'
      | verbatim hnone => exact absurd hs (hnone s)
  | verbatim hnone =>
      cases h' with
      | literal hs' => exact absurd hs' (hnone s')
      | verbatim => rfl

theorem isBlank_of_json {c : Char} (h : Json.isBlank c = true) : Text.isBlank c = true := by
  simp only [Json.isBlank, Bool.or_eq_true, decide_eq_true_eq] at h
  rcases h with ((rfl | rfl) | rfl) | rfl <;> rfl

theorem unquote_literal (h : Literal cs s) : unquote cs = s := by
  obtain ⟨body, hbody, rfl⟩ := h
  have hread : Json.readQuoted ((body ++ ['"']).length + 1) (body ++ ['"']) = .ok (s, []) :=
    hbody.readQuoted (by rw [List.length_append]; omega)
  rw [unquote, hread]
  rfl

theorem unquote_verbatim (htrimmed : Text.IsTrimmed cs) (h : ∀ s, ¬ Literal cs s) :
    unquote cs = cs := by
  unfold unquote
  split
  · rename_i rest
    split
    · rename_i s after hread
      split
      · rename_i hblank
        obtain ⟨body, hbody, rfl⟩ := Json.spells_of_readQuoted hread
        refine absurd ⟨body, hbody, ?_⟩ (h s)
        rcases after.eq_nil_or_concat with rfl | ⟨after, c, rfl⟩
        · rfl
        · have hc : Text.isBlank c = false := by
            refine htrimmed.last c ?_
            rw [List.concat_eq_append, ← List.cons_append, ← List.cons_append,
              ← List.append_assoc, List.getLast?_concat]
            rfl
          have hall := List.dropWhile_eq_nil_iff.mp (List.isEmpty_iff.mp hblank)
          rw [isBlank_of_json (hall c (by simp))] at hc
          cases hc
      · rfl
    · rfl
  · rfl

theorem unquote_eq_iff (htrimmed : Text.IsTrimmed cs) : unquote cs = s ↔ Denotes cs s := by
  constructor
  · rintro rfl
    by_cases h : ∃ s, Literal cs s
    · obtain ⟨s, hs⟩ := h
      exact .literal (unquote_literal hs ▸ hs)
    · have hnone := not_exists.mp h
      rw [unquote_verbatim htrimmed hnone]
      exact .verbatim hnone
  · intro h
    cases h with
    | literal hs => exact unquote_literal hs
    | verbatim hnone => exact unquote_verbatim htrimmed hnone

end Command

end AgentGateway
