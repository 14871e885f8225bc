import AgentGateway.Text.Blank
import Mathlib.Data.List.Basic
import Mathlib.Data.List.TakeWhile

namespace AgentGateway

section Cutting

variable {α : Type} {p : α → Bool} {a b l : List α}

theorem takeWhile_append_stop (ha : ∀ x ∈ a, p x = true) (hb : ∀ x ∈ b.head?, p x = false) :
    (a ++ b).takeWhile p = a := by
  rw [List.takeWhile_append_of_pos ha]
  cases b with
  | nil => simp
  | cons x b => rw [List.takeWhile_cons_of_neg (by simp [hb x rfl]), List.append_nil]

theorem dropWhile_append_stop (ha : ∀ x ∈ a, p x = true) (hb : ∀ x ∈ b.head?, p x = false) :
    (a ++ b).dropWhile p = b := by
  rw [List.dropWhile_append_of_pos ha]
  cases b with
  | nil => rfl
  | cons x b => exact List.dropWhile_cons_of_neg (by simp [hb x rfl])

theorem head?_dropWhile : ∀ x ∈ (l.dropWhile p).head?, p x = false := by
  intro x hx
  have h := List.head?_dropWhile_not p l
  rw [Option.mem_def.mp hx] at h
  exact h

theorem cut_unique {a' b' : List α} (h : a ++ b = a' ++ b') (ha : ∀ x ∈ a, p x = true)
    (ha' : ∀ x ∈ a', p x = true) (hb : ∀ x ∈ b.head?, p x = false)
    (hb' : ∀ x ∈ b'.head?, p x = false) : a = a' ∧ b = b' := by
  constructor
  · rw [← takeWhile_append_stop ha hb, h, takeWhile_append_stop ha' hb']
  · rw [← dropWhile_append_stop ha hb, h, dropWhile_append_stop ha' hb']

end Cutting

namespace Text

variable {cs core rest before after a b w : List Char} {sep : Char}

def IsSpace (cs : List Char) : Prop := ∀ c ∈ cs, isBlank c = true

structure IsTrimmed (cs : List Char) : Prop where
  head : ∀ c ∈ cs.head?, isBlank c = false
  last : ∀ c ∈ cs.getLast?, isBlank c = false

structure Trims (cs core : List Char) : Prop where
  isTrimmed : IsTrimmed core
  around : ∃ before after, IsSpace before ∧ IsSpace after ∧ cs = before ++ core ++ after

theorem isSpace_nil : IsSpace [] := by
  intro c hc
  cases hc

theorem isTrimmed_nil : IsTrimmed [] := by
  constructor <;> rintro _ ⟨⟩

theorem IsTrimmed.trims (h : IsTrimmed cs) : Trims cs cs :=
  ⟨h, [], [], isSpace_nil, isSpace_nil, by simp⟩

theorem Trims.append_space (h : Trims cs core) (hs : IsSpace after) :
    Trims (cs ++ after) core := by
  obtain ⟨hc, before, after', hb, ha, rfl⟩ := h
  refine ⟨hc, before, after' ++ after, hb, ?_, by simp⟩
  intro c hc
  exact (List.mem_append.mp hc).elim (ha c) (hs c)

theorem trimLeft_append (hb : IsSpace before) (hh : ∀ c ∈ rest.head?, isBlank c = false) :
    trimLeft (before ++ rest) = rest := dropWhile_append_stop hb hh

theorem trimLeft_append_cons {c : Char} (hb : IsSpace before) (hc : isBlank c = false) :
    trimLeft (before ++ c :: rest) = c :: rest := by
  apply trimLeft_append hb
  rintro _ ⟨⟩
  exact hc

theorem trimRight_append (ha : IsSpace after) (hl : ∀ c ∈ core.getLast?, isBlank c = false) :
    trimRight (core ++ after) = core := by
  have hreverse : IsSpace after.reverse := fun c hc => ha c (List.mem_reverse.mp hc)
  rw [trimRight, List.reverse_append, dropWhile_append_stop hreverse, List.reverse_reverse]
  rw [List.head?_reverse]
  exact hl

theorem trimLeft_space (h : IsSpace cs) : trimLeft cs = [] := by
  have htrim : trimLeft (cs ++ []) = [] := trimLeft_append h (by rintro _ ⟨⟩)
  rwa [List.append_nil] at htrim

theorem Trims.trim_eq (h : Trims cs core) : trim cs = core := by
  obtain ⟨hcore, before, after, hb, ha, rfl⟩ := h
  cases core with
  | nil =>
      have hall : IsSpace (before ++ [] ++ after) := by
        intro c hc
        rw [List.append_nil] at hc
        exact (List.mem_append.mp hc).elim (hb c) (ha c)
      rw [trim, trimLeft_space hall]
      rfl
  | cons c cs =>
      have hhead : ∀ d ∈ (c :: cs ++ after).head?, isBlank d = false := hcore.head
      rw [trim, List.append_assoc, trimLeft_append hb hhead, trimRight_append ha hcore.last]

theorem trims_trim (cs : List Char) : Trims cs (trim cs) := by
  have hright : trimLeft cs =
      trim cs ++ ((trimLeft cs).reverse.takeWhile isBlank).reverse := by
    rw [trim, trimRight, ← List.reverse_append, List.takeWhile_append_dropWhile,
      List.reverse_reverse]
  constructor
  · constructor
    · intro c hc
      apply head?_dropWhile (l := cs)
      rw [← trimLeft, hright, List.head?_append, Option.mem_def.mp hc]
      rfl
    · intro c hc
      rw [trim, trimRight, List.getLast?_reverse] at hc
      exact head?_dropWhile c hc
  · refine ⟨cs.takeWhile isBlank, ((trimLeft cs).reverse.takeWhile isBlank).reverse, ?_, ?_, ?_⟩
    · intro c hc
      exact List.mem_takeWhile_imp hc
    · intro c hc
      exact List.mem_takeWhile_imp (List.mem_reverse.mp hc)
    · rw [List.append_assoc, ← hright, trimLeft, List.takeWhile_append_dropWhile]

theorem trim_eq_iff : trim cs = core ↔ Trims cs core :=
  ⟨fun h => h ▸ trims_trim cs, Trims.trim_eq⟩

theorem Trims.unique {core' : List Char} (h : Trims cs core) (h' : Trims cs core') :
    core = core' := h.trim_eq.symm.trans h'.trim_eq

theorem trims_nil_iff : Trims cs [] ↔ IsSpace cs := by
  constructor
  · rintro ⟨-, before, after, hb, ha, rfl⟩ c hc
    rw [List.append_nil] at hc
    exact (List.mem_append.mp hc).elim (hb c) (ha c)
  · intro h
    exact ⟨isTrimmed_nil, cs, [], h, isSpace_nil, by simp⟩

theorem isTrimmed_of_forall (h : ∀ c ∈ cs, isBlank c = false) : IsTrimmed cs :=
  ⟨fun c hc => h c (List.mem_of_mem_head? hc), fun c hc => h c (List.mem_of_getLast? hc)⟩

theorem not_blank_of_all (h : cs.all (!isBlank ·) = true) {c : Char} (hc : c ∈ cs) :
    isBlank c = false := by
  simpa using List.all_eq_true.mp h c hc

theorem isTrimmed_of_all (h : cs.all (!isBlank ·) = true) : IsTrimmed cs :=
  isTrimmed_of_forall fun _ hc => not_blank_of_all h hc

theorem IsTrimmed.append (ha : IsTrimmed a) (hb : IsTrimmed b) (hne : a ≠ []) (hne' : b ≠ []) :
    IsTrimmed (a ++ (cs ++ b)) := by
  constructor
  · rw [List.head?_append_of_ne_nil a hne]
    exact ha.head
  · rw [← List.append_assoc, List.getLast?_append_of_ne_nil (a ++ cs) hne']
    exact hb.last

theorem isTrimmed_of_ends {c d : Char} (hc : isBlank c = false) (hd : isBlank d = false) :
    IsTrimmed (c :: (core ++ [d])) := by
  constructor
  · rintro _ ⟨⟩
    exact hc
  · intro e he
    rw [← List.cons_append, List.getLast?_concat] at he
    cases he
    exact hd

theorem after?_eq_some_iff : after? w cs = some rest ↔ cs = w ++ rest := by
  induction w generalizing cs with
  | nil => exact ⟨fun h => Option.some.inj h, congrArg some⟩
  | cons c w ih =>
      cases cs with
      | nil => simp [after?]
      | cons d cs =>
          rw [after?, List.cons_append, List.cons.injEq]
          split
          · rename_i hc
            rw [ih]
            exact ⟨fun h => ⟨hc.symm, h⟩, And.right⟩
          · rename_i hc
            exact ⟨(by rintro ⟨⟩), fun h => absurd h.1.symm hc⟩

theorem splitOnce?_eq_some_iff :
    splitOnce? sep cs = some (a, b) ↔ cs = a ++ sep :: b ∧ sep ∉ a := by
  have hrun {l : List Char} (h : sep ∉ l) : ∀ c ∈ l, decide (c ≠ sep) = true := by
    rintro c hc
    simp only [decide_eq_true_eq]
    rintro rfl
    exact h hc
  have hstop (l : List Char) : ∀ c ∈ (sep :: l).head?, decide (c ≠ sep) = false := by simp
  unfold splitOnce?
  constructor
  · intro h
    split at h
    · cases h
    · rename_i c rest hrest
      cases h
      obtain rfl : c = sep := by
        have hc := head?_dropWhile (p := fun c => decide (c ≠ sep)) (l := cs) c (by rw [hrest]; rfl)
        simpa using hc
      refine ⟨?_, fun hmem => ?_⟩
      · rw [← hrest, List.takeWhile_append_dropWhile]
      · simpa using List.mem_takeWhile_imp hmem
  · rintro ⟨rfl, hsep⟩
    rw [dropWhile_append_stop (hrun hsep) (hstop b), takeWhile_append_stop (hrun hsep) (hstop b)]

theorem splitOn_of_notMem (h : sep ∉ cs) : splitOn sep cs = [cs] := by
  induction cs with
  | nil => rfl
  | cons c cs ih =>
      obtain ⟨hc, hcs⟩ := not_or.mp (List.mem_cons.not.mp h)
      rw [splitOn, if_neg (Ne.symm hc), ih hcs]

theorem splitOn_append (h : sep ∉ a) : splitOn sep (a ++ sep :: b) = a :: splitOn sep b := by
  induction a with
  | nil => rw [List.nil_append, splitOn, if_pos rfl]
  | cons c a ih =>
      obtain ⟨hc, ha⟩ := not_or.mp (List.mem_cons.not.mp h)
      rw [List.cons_append, splitOn, if_neg (Ne.symm hc), ih ha]

theorem splitOn_intercalate {ls : List (List Char)} (hne : ls ≠ []) (h : ∀ l ∈ ls, sep ∉ l) :
    splitOn sep ([sep].intercalate ls) = ls := by
  induction ls with
  | nil => exact absurd rfl hne
  | cons l ls ih =>
      obtain ⟨hl, hls⟩ := List.forall_mem_cons.mp h
      cases ls with
      | nil => rw [List.intercalate_singleton, splitOn_of_notMem hl]
      | cons m ls =>
          rw [List.intercalate_cons_cons, List.append_assoc, List.singleton_append,
            splitOn_append hl, ih (List.cons_ne_nil m ls) hls]

theorem filterMap_lines {α : Type} {f : List Char → Option α} {ls : List (List Char)}
    (hreturn : ∀ l, f (dropReturn l) = f l) (hempty : f [] = none) (h : ∀ l ∈ ls, '\n' ∉ l) :
    (lines (['\n'].intercalate ls)).filterMap f = ls.filterMap f := by
  have hended (ls : List (List Char)) : (ls.map dropReturn).filterMap f = ls.filterMap f := by
    rw [List.filterMap_map]
    exact congrArg (List.filterMap · ls) (funext hreturn)
  rcases ls.eq_nil_or_concat with rfl | ⟨ls, last, rfl⟩
  · rfl
  · rw [List.concat_eq_append] at h ⊢
    rw [lines, splitOn_intercalate (by simp) h, List.dropLast_concat, List.getLast?_concat]
    cases last with
    | nil => simp [hended, hempty]
    | cons c last => simp only [List.filterMap_append, hended]

theorem trim_dropReturn (l : List Char) : trim (dropReturn l) = trim l := by
  unfold dropReturn
  split
  · rename_i h
    obtain ⟨l, rfl⟩ := List.getLast?_eq_some_iff.mp h
    have hspace : IsSpace ['\r'] := by
      intro c hc
      rw [List.mem_singleton.mp hc]
      rfl
    rw [List.dropLast_concat, ((trims_trim l).append_space hspace).trim_eq]
  · rfl

end Text

end AgentGateway
