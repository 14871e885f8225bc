import AgentGateway.Proofs.Amounts
import AgentGateway.Proofs.Literals
/-!
The grammar of command lines, told apart from the way they are read: a line is a command's or prose
by its form alone, and whether its arguments fit the command is told from their text.
-/

namespace AgentGateway.Command

open Text (IsSpace IsTrimmed Trims Signed)

variable {core name arg value raw key' line : List Char} {args args' : Option (List Char)}
variable {key : String}

def IsName (cs : List Char) : Prop :=
  ∃ c rest, cs = c :: rest ∧ isNameStart c = true ∧ ∀ d ∈ rest, isNameChar d = true

inductive Form : List Char → List Char → Option (List Char) → Prop
  | bare {name : List Char} : IsName name → Form name name none
  | call {name gap args : List Char} : IsName name → IsSpace gap → '\n' ∉ args →
      Form (name ++ (gap ++ '(' :: (args ++ [')']))) name (some args)

def Phrase (line name : List Char) (args : Option (List Char)) : Prop :=
  ∃ core, Trims line core ∧ Form core name args

theorem bounds_of_nameChar {c : Char} (h : isNameChar c = true) : 48 ≤ c.toNat ∧ c.toNat ≤ 122 := by
  rcases Bool.or_eq_true_iff.mp h with halphanum | hunderscore
  · rcases Bool.or_eq_true_iff.mp halphanum with halpha | hdigit
    · rcases Bool.or_eq_true_iff.mp halpha with hupper | hlower
      · have hbounds : 65 ≤ c.toNat ∧ c.toNat ≤ 90 := of_decide_eq_true hupper
        omega
      · obtain ⟨hlow, hhigh⟩ := Bool.and_eq_true_iff.mp hlower
        have hlow : 97 ≤ c.toNat := of_decide_eq_true hlow
        have hhigh : c.toNat ≤ 122 := of_decide_eq_true hhigh
        omega
    · have hbounds : 48 ≤ c.toNat ∧ c.toNat ≤ 57 := Char.isDigit_iff_toNat.mp hdigit
      omega
  · rw [of_decide_eq_true hunderscore]
    decide

theorem not_nameChar_of_blank {c : Char} (h : Text.isBlank c = true) : isNameChar c = false := by
  by_contra hname
  have hbounds := bounds_of_nameChar (Bool.of_not_eq_false hname)
  simp only [Text.isBlank, Bool.or_eq_true, Bool.and_eq_true, decide_eq_true_eq] at h
  omega

theorem not_nameChar_of_space {gap rest : List Char} {c : Char} (hgap : IsSpace gap)
    (hc : isNameChar c = false) : ∀ d ∈ (gap ++ c :: rest).head?, isNameChar d = false := by
  intro d hd
  cases gap with
  | nil =>
      cases hd
      exact hc
  | cons e gap =>
      cases hd
      exact not_nameChar_of_blank (hgap d List.mem_cons_self)

theorem parenthesised?_eq_some_iff {cs args : List Char} :
    parenthesised? cs = some args ↔ cs = '(' :: (args ++ [')']) ∧ '\n' ∉ args := by
  constructor
  · intro h
    unfold parenthesised? at h
    split at h
    · split at h <;> cases h
      rename_i hend
      obtain ⟨args, rfl⟩ := List.getLast?_eq_some_iff.mp hend.1
      rw [List.dropLast_concat]
      exact ⟨rfl, fun hmem => hend.2 (List.mem_append_left _ hmem)⟩
    · cases h
  · rintro ⟨rfl, hargs⟩
    have hend : (args ++ [')']).getLast? = some ')' ∧ '\n' ∉ args ++ [')'] := by
      simp [hargs]
    rw [parenthesised?, if_pos hend, List.dropLast_concat]

theorem split?_of_form (htrim : Trims line core) (h : Form core name args) :
    split? line = some (name, args.map Text.trim) := by
  rw [split?, htrim.trim_eq]
  cases h with
  | bare hname =>
      obtain ⟨c, rest, rfl, hc, hrest⟩ := hname
      have htake : rest.takeWhile isNameChar = rest := List.takeWhile_eq_self_iff.mpr hrest
      have hdrop : rest.dropWhile isNameChar = [] := List.dropWhile_eq_nil_iff.mpr hrest
      simp [hc, htake, hdrop]
  | @call name gap args hname hgap hargs =>
      obtain ⟨c, rest, rfl, hc, hrest⟩ := hname
      have hstop : ∀ d ∈ (gap ++ '(' :: (args ++ [')'])).head?, isNameChar d = false :=
        not_nameChar_of_space hgap rfl
      have hne : gap ++ '(' :: (args ++ [')']) ≠ [] := by simp
      simp only [List.cons_append, if_pos hc]
      rw [takeWhile_append_stop hrest hstop, dropWhile_append_stop hrest hstop]
      split
      · rename_i hnil
        exact absurd hnil hne
      · rw [Text.trimLeft_append_cons hgap rfl, parenthesised?_eq_some_iff.mpr ⟨rfl, hargs⟩]
        rfl

theorem form_of_split? (h : split? line = some (name, args)) :
    ∃ args', Phrase line name args' ∧ args = args'.map Text.trim := by
  have htrim := Text.trims_trim line
  unfold split? at h
  generalize Text.trim line = core at h htrim
  split at h
  · cases h
  · rename_i c cs
    split at h
    · rename_i hc
      have hname : IsName (c :: cs.takeWhile isNameChar) :=
        ⟨c, _, rfl, hc, fun d hd => List.mem_takeWhile_imp hd⟩
      have hcut : c :: cs = (c :: cs.takeWhile isNameChar) ++ cs.dropWhile isNameChar := by
        rw [List.cons_append, List.takeWhile_append_dropWhile]
      dsimp only at h
      split at h
      · rename_i hnil
        cases h
        refine ⟨none, ⟨_, htrim, ?_⟩, rfl⟩
        rw [hcut, hnil, List.append_nil]
        exact .bare hname
      · obtain ⟨raw, hraw, h⟩ := Option.map_eq_some_iff.mp h
        obtain ⟨hparen, hargs⟩ := parenthesised?_eq_some_iff.mp hraw
        obtain ⟨gap, hgap, hrest⟩ := trimLeft_eq_cons hparen
        cases h
        refine ⟨some raw, ⟨_, htrim, ?_⟩, rfl⟩
        rw [hcut, hrest]
        exact .call hname hgap hargs
    · cases h

theorem IsName.cut_unique {name' rest rest' : List Char} (h : name ++ rest = name' ++ rest')
    (hname : IsName name) (hname' : IsName name')
    (hstop : ∀ c ∈ rest.head?, isNameChar c = false)
    (hstop' : ∀ c ∈ rest'.head?, isNameChar c = false) : name = name' ∧ rest = rest' := by
  obtain ⟨c, cs, rfl, -, hcs⟩ := hname
  obtain ⟨c', cs', rfl, -, hcs'⟩ := hname'
  obtain ⟨rfl, htail⟩ := List.cons.inj h
  obtain ⟨rfl, rfl⟩ := AgentGateway.cut_unique htail hcs hcs' hstop hstop'
  exact ⟨rfl, rfl⟩

theorem Form.cut (h : Form core name args) : ∃ rest, core = name ++ rest ∧ IsName name ∧
    (∀ c ∈ rest.head?, isNameChar c = false) ∧
    (rest = [] ∧ args = none ∨ ∃ gap raw, IsSpace gap ∧ rest = gap ++ '(' :: (raw ++ [')']) ∧
      args = some raw) := by
  cases h with
  | bare hname => exact ⟨[], by simp, hname, by simp, .inl ⟨rfl, rfl⟩⟩
  | call hname hgap hargs =>
      exact ⟨_, rfl, hname, not_nameChar_of_space hgap rfl, .inr ⟨_, _, hgap, rfl, rfl⟩⟩

theorem Form.unique {name' : List Char} (h : Form core name args) (h' : Form core name' args') :
    name = name' ∧ args = args' := by
  obtain ⟨rest, rfl, hname, hstop, hargs⟩ := h.cut
  obtain ⟨rest', heq, hname', hstop', hargs'⟩ := h'.cut
  obtain ⟨rfl, rfl⟩ := hname.cut_unique heq hname' hstop hstop'
  refine ⟨rfl, ?_⟩
  rcases hargs with ⟨rfl, rfl⟩ | ⟨gap, raw, hgap, rfl, rfl⟩
  · rcases hargs' with ⟨-, rfl⟩ | ⟨gap', raw', -, hnil, -⟩
    · rfl
    · cases gap' <;> cases hnil
  · rcases hargs' with ⟨hnil, -⟩ | ⟨gap', raw', hgap', hrest, rfl⟩
    · cases gap <;> cases hnil
    · have hparen {raw : List Char} :
          ∀ c ∈ ('(' :: (raw ++ [')'])).head?, Text.isBlank c = false := by
        rintro _ ⟨⟩
        rfl
      obtain ⟨-, hraw⟩ := AgentGateway.cut_unique hrest hgap hgap' hparen hparen
      rw [List.append_cancel_right (List.cons.inj hraw).2]

theorem Phrase.unique {name' : List Char} (h : Phrase line name args)
    (h' : Phrase line name' args') :
    name = name' ∧ args = args' := by
  obtain ⟨core, htrim, hform⟩ := h
  obtain ⟨core', htrim', hform'⟩ := h'
  obtain rfl := htrim.unique htrim'
  exact hform.unique hform'

theorem split?_eq_some_iff {targs : Option (List Char)} : split? line = some (name, targs) ↔
    ∃ args, Phrase line name args ∧ targs = args.map Text.trim := by
  constructor
  · exact form_of_split?
  · rintro ⟨args, ⟨core, htrim, hform⟩, rfl⟩
    exact split?_of_form htrim hform

/-- The value of an argument under a key, which may stand before it with an equals sign. -/
inductive Keyed (key : String) : List Char → List Char → Prop
  | keyed {gap rest value : List Char} : IsSpace gap → Trims rest value →
      Keyed key (key.toList ++ (gap ++ '=' :: rest)) value
  | bare {arg : List Char} :
      (∀ gap rest, IsSpace gap → arg ≠ key.toList ++ (gap ++ '=' :: rest)) → Keyed key arg arg

def Field (key : String) (raw value : List Char) : Prop :=
  ∃ arg, Trims raw arg ∧ Keyed key arg value

def Given (args : Option (List Char)) (arg : List Char) : Prop :=
  ∃ raw, args = some raw ∧ Trims raw arg ∧ arg ≠ []

def Sole (key : String) (args : Option (List Char)) (value : List Char) : Prop :=
  ∃ arg, Given args arg ∧ Keyed key arg value

theorem Given.unique {arg' : List Char} (h : Given args arg) (h' : Given args arg') :
    arg = arg' := by
  obtain ⟨raw, rfl, htrim, -⟩ := h
  obtain ⟨_, ⟨⟩, htrim', -⟩ := h'
  exact htrim.unique htrim'

theorem Given.isTrimmed (h : Given args arg) : IsTrimmed arg := by
  obtain ⟨raw, -, htrim, -⟩ := h
  exact htrim.isTrimmed

theorem required_eq_ok_iff : required (args.map Text.trim) = .ok arg ↔ Given args arg := by
  cases args with
  | none =>
      constructor
      · rintro ⟨⟩
      · rintro ⟨raw, ⟨⟩, -⟩
  | some raw =>
      have hread : required (some (Text.trim raw)) = .ok arg ↔ Text.trim raw = arg ∧ arg ≠ [] := by
        cases Text.trim raw with
        | nil =>
            constructor
            · rintro ⟨⟩
            · rintro ⟨rfl, hne⟩
              exact absurd rfl hne
        | cons c cs =>
            constructor
            · rintro ⟨⟩
              exact ⟨rfl, List.cons_ne_nil c cs⟩
            · rintro ⟨rfl, -⟩
              rfl
      rw [Option.map_some, hread, Text.trim_eq_iff]
      constructor
      · rintro ⟨htrim, hne⟩
        exact ⟨raw, rfl, htrim, hne⟩
      · rintro ⟨_, ⟨⟩, htrim, hne⟩
        exact ⟨htrim, hne⟩

theorem stripKey_keyed {gap rest : List Char} (hgap : IsSpace gap) (h : Trims rest value) :
    stripKey key (key.toList ++ (gap ++ '=' :: rest)) = value := by
  have hafter : Text.after? ['='] ('=' :: rest) = some rest :=
    Text.after?_eq_some_iff.mpr rfl
  rw [stripKey, Text.after?_eq_some_iff.mpr rfl]
  simp only [Option.bind_eq_bind, Option.bind_some]
  rw [Text.trimLeft_append_cons hgap rfl, hafter]
  exact h.trim_eq

theorem keyed_stripKey (key : String) (arg : List Char) : Keyed key arg (stripKey key arg) := by
  unfold stripKey
  cases hafter : Text.after? key.toList arg with
  | none =>
      refine .bare fun gap rest _ heq => ?_
      rw [Text.after?_eq_some_iff.mpr heq] at hafter
      cases hafter
  | some behind =>
      obtain rfl := Text.after?_eq_some_iff.mp hafter
      simp only [Option.bind_eq_bind, Option.bind_some]
      cases heq : Text.after? ['='] (Text.trimLeft behind) with
      | none =>
          refine .bare fun gap rest hgap hform => ?_
          obtain rfl := List.append_cancel_left hform
          rw [Text.trimLeft_append_cons hgap rfl] at heq
          cases heq
      | some rest =>
          obtain ⟨gap, hgap, rfl⟩ := trimLeft_eq_cons (Text.after?_eq_some_iff.mp heq)
          exact .keyed hgap (Text.trims_trim rest)

theorem stripKey_eq_iff : stripKey key arg = value ↔ Keyed key arg value := by
  constructor
  · rintro rfl
    exact keyed_stripKey key arg
  · intro h
    cases h with
    | keyed hgap htrim => exact stripKey_keyed hgap htrim
    | bare hform =>
        generalize hvalue : stripKey key arg = value
        cases hvalue ▸ keyed_stripKey key arg with
        | keyed hgap htrim => exact absurd rfl (hform _ _ hgap)
        | bare => rfl

theorem Sole.unique {value' : List Char} (h : Sole key args value) (h' : Sole key args value') :
    value = value' := by
  obtain ⟨arg, hgiven, hkey⟩ := h
  obtain ⟨arg', hgiven', hkey'⟩ := h'
  obtain rfl := hgiven.unique hgiven'
  rw [← stripKey_eq_iff.mpr hkey, stripKey_eq_iff.mpr hkey']

theorem Keyed.isTrimmed (h : Keyed key arg value) (harg : IsTrimmed arg) : IsTrimmed value := by
  cases h with
  | keyed hgap htrim => exact htrim.isTrimmed
  | bare => exact harg

theorem stripKey_trim_eq_iff : stripKey key (Text.trim raw) = value ↔ Field key raw value := by
  rw [stripKey_eq_iff]
  constructor
  · intro h
    exact ⟨_, Text.trims_trim raw, h⟩
  · rintro ⟨arg, htrim, h⟩
    rwa [htrim.trim_eq]

theorem ofSome_eq_ok_iff {α : Type} {fault : ArgumentFault} {o : Option α} {a : α} :
    ofSome fault o = .ok a ↔ o = some a := by
  cases o <;> simp [ofSome]

def known : List String := ["wait", "respond", "ask", "stream", "error", "get_headers"]

/-- That the arguments of a command fit it, and which command they give. -/
inductive Fits : String → Option (List Char) → Command → Prop
  | wait {args : Option (List Char)} {value : List Char} {n unit : Nat} :
      Sole "duration" args value → Timed value n unit → n ≤ maxAmount →
      Fits "wait" args (.wait (n * unit))
  | respond {args : Option (List Char)} {kind payload value s : List Char} {k : RespondKind} :
      Given args (kind ++ ',' :: payload) → ',' ∉ kind → Field "kind" kind k.name.toList →
      Field "payload" payload value → Denotes value s →
      Fits "respond" args (.respond k (String.ofList s))
  | ask {args : Option (List Char)} {value s : List Char} :
      Sole "prompt" args value → Denotes value s → Fits "ask" args (.ask (String.ofList s))
  | stream {args : Option (List Char)} {value : List Char} {n : Nat} :
      Sole "count" args value → Signed value n → 1 ≤ n → n ≤ Nat.pow 2 32 - 1 →
      Fits "stream" args (.stream n)
  | code {args : Option (List Char)} {value s : List Char} {i : Int} :
      Sole "code" args value → Denotes value s → Signed s i → -Nat.pow 2 31 ≤ i →
      i ≤ Nat.pow 2 31 - 1 →
      Fits "error" args (.error (.code i))
  | fail {args : Option (List Char)} {value : List Char} :
      Sole "code" args value → Denotes value ['f', 'a', 'i', 'l'] →
      Fits "error" args (.error .fail)
  | getHeaders {args : Option (List Char)} :
      (∀ raw ∈ args, IsSpace raw) → Fits "get_headers" args .getHeaders
  | unknown {name : String} {args : Option (List Char)} :
      name ∉ known → Fits name args (.unknown name)

variable {c : Command}

theorem readWait_eq_ok_iff : readWait arg = .ok c ↔ ∃ value n unit,
    Keyed "duration" arg value ∧ Timed value n unit ∧ n ≤ maxAmount ∧ c = .wait (n * unit) := by
  constructor
  · intro h
    obtain ⟨ms, hms, h⟩ := bind_eq_ok.mp h
    obtain ⟨n, unit, htimed, hn, rfl⟩ := duration?_eq_some_iff.mp (ofSome_eq_ok_iff.mp hms)
    cases h
    exact ⟨_, n, unit, keyed_stripKey "duration" arg, htimed, hn, rfl⟩
  · rintro ⟨value, n, unit, hkey, htimed, hn, rfl⟩
    refine bind_eq_ok.mpr ⟨n * unit, ofSome_eq_ok_iff.mpr ?_, rfl⟩
    rw [stripKey_eq_iff.mpr hkey]
    exact duration?_eq_some_iff.mpr ⟨n, unit, htimed, hn, rfl⟩

theorem ofName?_eq_some_iff {k : RespondKind} :
    RespondKind.ofName? (String.ofList value) = some k ↔ value = k.name.toList := by
  constructor
  · intro h
    have hname : k.name = String.ofList value := by simpa using List.find?_some h
    rw [hname, String.toList_ofList]
  · rintro rfl
    rw [String.ofList_toList]
    cases k <;> decide

theorem readRespond_eq_ok_iff : readRespond arg = .ok c ↔ ∃ kind payload value s k,
    arg = kind ++ ',' :: payload ∧ ',' ∉ kind ∧ Field "kind" kind (RespondKind.name k).toList ∧
      Field "payload" payload value ∧ Denotes value s ∧
      c = .respond k (String.ofList s) := by
  have hdenotes {payload value : List Char} (h : Field "payload" payload value) {s : List Char} :
      unquote value = s ↔ Denotes value s := by
    obtain ⟨arg, htrim, hkey⟩ := h
    exact unquote_eq_iff (hkey.isTrimmed htrim.isTrimmed)
  constructor
  · intro h
    obtain ⟨⟨kind, payload⟩, hsplit, hread⟩ := bind_eq_ok.mp h
    obtain ⟨rfl, hcomma⟩ := Text.splitOnce?_eq_some_iff.mp (ofSome_eq_ok_iff.mp hsplit)
    obtain ⟨k, hk, hend⟩ := bind_eq_ok.mp hread
    have hkind := ofName?_eq_some_iff.mp (ofSome_eq_ok_iff.mp hk)
    cases hend
    have hpayload : Field "payload" payload (stripKey "payload" (Text.trim payload)) :=
      stripKey_trim_eq_iff.mp rfl
    exact ⟨kind, payload, _, _, k, rfl, hcomma, stripKey_trim_eq_iff.mp hkind, hpayload,
      (hdenotes hpayload).mp rfl, rfl⟩
  · rintro ⟨kind, payload, value, s, k, rfl, hcomma, hkind, hpayload, hs, rfl⟩
    refine bind_eq_ok.mpr ⟨(kind, payload), ?_, bind_eq_ok.mpr ⟨k, ?_, ?_⟩⟩
    · exact ofSome_eq_ok_iff.mpr (Text.splitOnce?_eq_some_iff.mpr ⟨rfl, hcomma⟩)
    · exact ofSome_eq_ok_iff.mpr (ofName?_eq_some_iff.mpr (stripKey_trim_eq_iff.mpr hkind))
    · rw [stripKey_trim_eq_iff.mpr hpayload, (hdenotes hpayload).mpr hs]

theorem readAsk_eq_ok_iff (harg : IsTrimmed arg) : readAsk arg = .ok c ↔ ∃ value s,
    Keyed "prompt" arg value ∧ Denotes value s ∧ c = .ask (String.ofList s) := by
  constructor
  · intro h
    cases h
    have hkey := keyed_stripKey "prompt" arg
    exact ⟨_, _, hkey, (unquote_eq_iff (hkey.isTrimmed harg)).mp rfl, rfl⟩
  · rintro ⟨value, s, hkey, hs, rfl⟩
    rw [readAsk, stripKey_eq_iff.mpr hkey, (unquote_eq_iff (hkey.isTrimmed harg)).mpr hs]

theorem readStream_eq_ok_iff : readStream arg = .ok c ↔ ∃ value, ∃ n : Nat,
    Keyed "count" arg value ∧ Signed value n ∧ 1 ≤ n ∧ n ≤ Nat.pow 2 32 - 1 ∧ c = .stream n := by
  constructor
  · intro h
    obtain ⟨n, hn, h⟩ := bind_eq_ok.mp h
    obtain ⟨hread, hpos⟩ := Option.filter_eq_some_iff.mp (ofSome_eq_ok_iff.mp hn)
    have hpos : 0 < n := of_decide_eq_true hpos
    obtain ⟨hsigned, hle⟩ := (Text.unsigned?_eq_some_iff hpos).mp hread
    cases h
    exact ⟨_, n, keyed_stripKey "count" arg, hsigned, hpos, hle, rfl⟩
  · rintro ⟨value, n, hkey, hsigned, hpos, hle, rfl⟩
    refine bind_eq_ok.mpr ⟨n, ofSome_eq_ok_iff.mpr (Option.filter_eq_some_iff.mpr ⟨?_, ?_⟩), rfl⟩
    · rw [stripKey_eq_iff.mpr hkey]
      exact (Text.unsigned?_eq_some_iff hpos).mpr ⟨hsigned, hle⟩
    · exact decide_eq_true hpos

theorem not_signed_fail {i : Int} : ¬ Signed ['f', 'a', 'i', 'l'] i := by
  intro h
  cases h with
  | bare hn => exact absurd hn (Text.Digits.not_sign rfl)

theorem readError_eq_ok_iff (harg : IsTrimmed arg) : readError arg = .ok c ↔ ∃ value s,
    Keyed "code" arg value ∧ Denotes value s ∧
      (s = ['f', 'a', 'i', 'l'] ∧ c = .error .fail ∨
        ∃ i, Signed s i ∧ -Nat.pow 2 31 ≤ i ∧ i ≤ Nat.pow 2 31 - 1 ∧ c = .error (.code i)) := by
  have hread {s : List Char} {i : Int} :
      Text.signed? (-Nat.pow 2 31) (Nat.pow 2 31 - 1) s = some i ↔
        Signed s i ∧ -Nat.pow 2 31 ≤ i ∧ i ≤ Nat.pow 2 31 - 1 :=
    Text.signed?_eq_some_iff (by decide) (by decide)
  constructor
  · intro h
    have hkey := keyed_stripKey "code" arg
    have hs := (unquote_eq_iff (hkey.isTrimmed harg)).mp rfl
    refine ⟨_, _, hkey, hs, ?_⟩
    unfold readError at h
    dsimp only at h
    split at h
    · rename_i hfail
      cases h
      exact .inl ⟨hfail, rfl⟩
    · obtain ⟨i, hi, h⟩ := bind_eq_ok.mp h
      obtain ⟨hsigned, hlow, hhigh⟩ := hread.mp (ofSome_eq_ok_iff.mp hi)
      cases h
      exact .inr ⟨i, hsigned, hlow, hhigh, rfl⟩
  · rintro ⟨value, s, hkey, hs, houtcome⟩
    rw [readError, stripKey_eq_iff.mpr hkey, (unquote_eq_iff (hkey.isTrimmed harg)).mpr hs]
    rcases houtcome with ⟨rfl, rfl⟩ | ⟨i, hsigned, hlow, hhigh, rfl⟩
    · rfl
    · have hfail : s ≠ "fail".toList := by
        rintro rfl
        exact not_signed_fail hsigned
      rw [if_neg hfail]
      exact bind_eq_ok.mpr ⟨i, ofSome_eq_ok_iff.mpr (hread.mpr ⟨hsigned, hlow, hhigh⟩), rfl⟩

theorem ofParts_unknown {name : String} (h : name ∉ known) :
    ofParts name args = .ok (.unknown name) := by
  simp only [known, List.mem_cons, List.not_mem_nil, or_false, not_or] at h
  unfold ofParts
  split <;> simp_all

theorem required_bind_eq_ok_iff {f : List Char → Except ArgumentFault Command} :
    (required (args.map Text.trim) >>= f) = .ok c ↔ ∃ arg, Given args arg ∧ f arg = .ok c := by
  rw [bind_eq_ok]
  simp only [required_eq_ok_iff]

theorem ofParts_getHeaders :
    ofParts "get_headers" (args.map Text.trim) = .ok c ↔
      (∀ raw ∈ args, IsSpace raw) ∧ c = .getHeaders := by
  cases args with
  | none => simp [ofParts, eq_comm]
  | some raw =>
      have hspace : Text.trim raw = [] ↔ IsSpace raw := by
        rw [Text.trim_eq_iff, Text.trims_nil_iff]
      rw [Option.map_some]
      cases htrim : Text.trim raw with
      | nil => simp [ofParts, eq_comm, hspace.mp htrim]
      | cons d cs => simp [ofParts, ← hspace, htrim]

theorem fits_of_ofParts {name : String} (h : ofParts name (args.map Text.trim) = .ok c) :
    Fits name args c := by
  by_cases hname : name ∈ known
  · simp only [known, List.mem_cons, List.not_mem_nil, or_false] at hname
    rcases hname with rfl | rfl | rfl | rfl | rfl | rfl
    · obtain ⟨arg, hgiven, h⟩ := required_bind_eq_ok_iff.mp h
      obtain ⟨value, n, unit, hkey, htimed, hn, rfl⟩ := readWait_eq_ok_iff.mp h
      exact .wait ⟨arg, hgiven, hkey⟩ htimed hn
    · obtain ⟨arg, hgiven, h⟩ := required_bind_eq_ok_iff.mp h
      obtain ⟨kind, payload, value, s, k, rfl, hcomma, hkind, hpayload, hs, rfl⟩ :=
        readRespond_eq_ok_iff.mp h
      exact .respond hgiven hcomma hkind hpayload hs
    · obtain ⟨arg, hgiven, h⟩ := required_bind_eq_ok_iff.mp h
      obtain ⟨value, s, hkey, hs, rfl⟩ := (readAsk_eq_ok_iff hgiven.isTrimmed).mp h
      exact .ask ⟨arg, hgiven, hkey⟩ hs
    · obtain ⟨arg, hgiven, h⟩ := required_bind_eq_ok_iff.mp h
      obtain ⟨value, n, hkey, hsigned, hpos, hle, rfl⟩ := readStream_eq_ok_iff.mp h
      exact .stream ⟨arg, hgiven, hkey⟩ hsigned hpos hle
    · obtain ⟨arg, hgiven, h⟩ := required_bind_eq_ok_iff.mp h
      obtain ⟨value, s, hkey, hs, houtcome⟩ := (readError_eq_ok_iff hgiven.isTrimmed).mp h
      rcases houtcome with ⟨rfl, rfl⟩ | ⟨i, hsigned, hlow, hhigh, rfl⟩
      · exact .fail ⟨arg, hgiven, hkey⟩ hs
      · exact .code ⟨arg, hgiven, hkey⟩ hs hsigned hlow hhigh
    · obtain ⟨hspace, rfl⟩ := ofParts_getHeaders.mp h
      exact .getHeaders hspace
  · rw [ofParts_unknown hname] at h
    cases h
    exact .unknown hname

theorem ofParts_of_fits {name : String} (h : Fits name args c) :
    ofParts name (args.map Text.trim) = .ok c := by
  cases h with
  | wait hsole htimed hn =>
      obtain ⟨arg, hgiven, hkey⟩ := hsole
      exact required_bind_eq_ok_iff.mpr
        ⟨arg, hgiven, readWait_eq_ok_iff.mpr ⟨_, _, _, hkey, htimed, hn, rfl⟩⟩
  | respond hgiven hcomma hkind hpayload hs =>
      exact required_bind_eq_ok_iff.mpr ⟨_, hgiven, readRespond_eq_ok_iff.mpr
        ⟨_, _, _, _, _, rfl, hcomma, hkind, hpayload, hs, rfl⟩⟩
  | ask hsole hs =>
      obtain ⟨arg, hgiven, hkey⟩ := hsole
      exact required_bind_eq_ok_iff.mpr
        ⟨arg, hgiven, (readAsk_eq_ok_iff hgiven.isTrimmed).mpr ⟨_, _, hkey, hs, rfl⟩⟩
  | stream hsole hsigned hpos hle =>
      obtain ⟨arg, hgiven, hkey⟩ := hsole
      exact required_bind_eq_ok_iff.mpr
        ⟨arg, hgiven, readStream_eq_ok_iff.mpr ⟨_, _, hkey, hsigned, hpos, hle, rfl⟩⟩
  | code hsole hs hsigned hlow hhigh =>
      obtain ⟨arg, hgiven, hkey⟩ := hsole
      exact required_bind_eq_ok_iff.mpr ⟨arg, hgiven, (readError_eq_ok_iff hgiven.isTrimmed).mpr
        ⟨_, _, hkey, hs, .inr ⟨_, hsigned, hlow, hhigh, rfl⟩⟩⟩
  | fail hsole hs =>
      obtain ⟨arg, hgiven, hkey⟩ := hsole
      exact required_bind_eq_ok_iff.mpr ⟨arg, hgiven, (readError_eq_ok_iff hgiven.isTrimmed).mpr
        ⟨_, _, hkey, hs, .inl ⟨rfl, rfl⟩⟩⟩
  | getHeaders hspace => exact ofParts_getHeaders.mpr ⟨hspace, rfl⟩
  | unknown hname => exact ofParts_unknown hname

theorem ofParts_eq_ok_iff {name : String} :
    ofParts name (args.map Text.trim) = .ok c ↔ Fits name args c :=
  ⟨fits_of_ofParts, ofParts_of_fits⟩

inductive Amount : String → Option (List Char) → Int → Int → Int → Prop
  | wait {args : Option (List Char)} {value : List Char} {n unit : Nat} :
      Sole "duration" args value → Timed value n unit → Amount "wait" args n 0 maxAmount
  | stream {args : Option (List Char)} {value : List Char} {i : Int} :
      Sole "count" args value → Signed value i → Amount "stream" args i 1 (Nat.pow 2 32 - 1)
  | code {args : Option (List Char)} {value s : List Char} {i : Int} :
      Sole "code" args value → Denotes value s → Signed s i →
      Amount "error" args i (-Nat.pow 2 31) (Nat.pow 2 31 - 1)

theorem Amount.fits_iff {name : String} {i low high : Int} (h : Amount name args i low high) :
    (∃ c, Fits name args c) ↔ low ≤ i ∧ i ≤ high := by
  cases h with
  | @wait _ value n unit hsole htimed =>
      constructor
      · rintro ⟨c, hfits⟩
        obtain ⟨arg, hgiven, hread⟩ := required_bind_eq_ok_iff.mp (ofParts_of_fits hfits)
        obtain ⟨value', m, unit', hkey, htimed', hm, -⟩ := readWait_eq_ok_iff.mp hread
        obtain rfl := hsole.unique ⟨arg, hgiven, hkey⟩
        obtain ⟨rfl, -⟩ := htimed.unique htimed'
        omega
      · rintro ⟨-, hn⟩
        exact ⟨_, .wait hsole htimed (by omega)⟩
  | @stream _ value i hsole hsigned =>
      constructor
      · rintro ⟨c, hfits⟩
        obtain ⟨arg, hgiven, hread⟩ := required_bind_eq_ok_iff.mp (ofParts_of_fits hfits)
        obtain ⟨value', n, hkey, hsigned', hpos, hle, -⟩ := readStream_eq_ok_iff.mp hread
        obtain rfl := hsole.unique ⟨arg, hgiven, hkey⟩
        obtain rfl := hsigned.unique hsigned'
        omega
      · rintro ⟨hpos, hle⟩
        obtain ⟨n, rfl⟩ := Int.eq_ofNat_of_zero_le (by omega : 0 ≤ i)
        exact ⟨_, .stream hsole hsigned (by omega) (by omega)⟩
  | @code _ value s i hsole hs hsigned =>
      constructor
      · rintro ⟨c, hfits⟩
        obtain ⟨arg, hgiven, hread⟩ := required_bind_eq_ok_iff.mp (ofParts_of_fits hfits)
        obtain ⟨value', s', hkey, hs', houtcome⟩ :=
          (readError_eq_ok_iff hgiven.isTrimmed).mp hread
        obtain rfl := hsole.unique ⟨arg, hgiven, hkey⟩
        obtain rfl := hs.unique hs'
        rcases houtcome with ⟨rfl, -⟩ | ⟨j, hsigned', hlow, hhigh, -⟩
        · exact absurd hsigned not_signed_fail
        · obtain rfl := hsigned.unique hsigned'
          exact ⟨hlow, hhigh⟩
      · rintro ⟨hlow, hhigh⟩
        exact ⟨_, .code hsole hs hsigned hlow hhigh⟩

theorem ofLine?_of_phrase (h : Phrase line name args) : ofLine? line =
    some ⟨String.ofList name, ofParts (String.ofList name) (args.map Text.trim)⟩ := by
  unfold ofLine?
  rw [split?_eq_some_iff.mpr ⟨args, h, rfl⟩]
  rfl

theorem phrase_of_ofLine? {found : Line} (h : ofLine? line = some found) :
    ∃ name args, Phrase line name args ∧ found.name = String.ofList name ∧
      found.command = ofParts (String.ofList name) (args.map Text.trim) := by
  obtain ⟨⟨name, targs⟩, hsplit, rfl⟩ := Option.map_eq_some_iff.mp h
  obtain ⟨args, hphrase, rfl⟩ := split?_eq_some_iff.mp hsplit
  exact ⟨name, args, hphrase, rfl, rfl⟩

theorem ofLine?_of_fits (h : Phrase line name args) (hfits : Fits (String.ofList name) args c) :
    ofLine? line = some ⟨String.ofList name, .ok c⟩ := by
  rw [ofLine?_of_phrase h, ofParts_of_fits hfits]

/-- A line is a command's exactly if it has the form of one, it has that form in one way only, and
then its command is the one that its arguments fit, if they fit any. Of amounts those within their
bounds fit, and no others. -/
theorem ofLine?_grammar (line : List Char) :
    ((ofLine? line).isSome ↔ ∃ name args, Phrase line name args) ∧
    (∀ name args name' args', Phrase line name args → Phrase line name' args' →
      name = name' ∧ args = args') ∧
    ∀ name args, Phrase line name args → ∃ command,
      ofLine? line = some ⟨String.ofList name, command⟩ ∧
      (∀ c, command = .ok c ↔ Fits (String.ofList name) args c) ∧
      ∀ i low high, Amount (String.ofList name) args i low high →
        ((∃ c, command = .ok c) ↔ low ≤ i ∧ i ≤ high) := by
  refine ⟨?_, fun _ _ _ _ => Phrase.unique, fun name args hphrase => ?_⟩
  · rw [Option.isSome_iff_exists]
    constructor
    · rintro ⟨found, h⟩
      obtain ⟨name, args, hphrase, -⟩ := phrase_of_ofLine? h
      exact ⟨name, args, hphrase⟩
    · rintro ⟨name, args, hphrase⟩
      exact ⟨_, ofLine?_of_phrase hphrase⟩
  · refine ⟨_, ofLine?_of_phrase hphrase, fun c => ofParts_eq_ok_iff, ?_⟩
    intro i low high hamount
    simp only [ofParts_eq_ok_iff]
    exact hamount.fits_iff

end AgentGateway.Command
