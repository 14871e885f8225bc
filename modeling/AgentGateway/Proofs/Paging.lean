import AgentGateway.Gateway.Calling
import AgentGateway.Gateway.Handler
import AgentGateway.Proofs.Amounts
import AgentGateway.Proofs.Layouts

namespace AgentGateway

open Json (Value)

namespace Toolbox

variable {ts us : List Tool} {t : Tool}

/-- That of the tools that have been registered the last one of each name is there, in ascending
order of the names. -/
structure Latest (ts us : List Tool) : Prop where
  ascends : us.Pairwise fun t u => t.name < u.name
  mem : ∀ u, u ∈ us ↔ ts.reverse.find? (·.name = u.name) = some u

def keyed (ts : List Tool) : List (String × Tool) := ts.map fun t => (t.name, t)

theorem keyed_insertSorted : keyed (insertSorted t us) = KeyOrder.insert t.name t (keyed us) := by
  induction us with
  | nil => rfl
  | cons u us ih =>
      change _ = KeyOrder.insert t.name t ((u.name, u) :: keyed us)
      rw [insertSorted, KeyOrder.insert, ← ih]
      split
      · rfl
      · split <;> rfl

theorem keyed_ofList : keyed (ofList ts).tools = KeyOrder.ofList (keyed ts) := by
  have hgo (b : Toolbox) :
      keyed (ts.foldl insert b).tools = KeyOrder.insertAll (keyed ts) (keyed b.tools) := by
    induction ts generalizing b with
    | nil => rfl
    | cons t ts ih =>
        rw [List.foldl_cons, ih, insert, keyed_insertSorted]
        rfl
  exact hgo {}

theorem lookup_keyed {name : String} : (keyed us).lookup name = us.find? (·.name = name) := by
  induction us with
  | nil => rfl
  | cons u us ih =>
      change ((u.name, u) :: keyed us).lookup name = _
      rw [lookup_cons_key, List.find?_cons, ih]
      by_cases h : name = u.name
      · simp [h]
      · simp [h, Ne.symm h]

theorem mem_keyed {name : String} {u : Tool} : (name, u) ∈ keyed us ↔ u ∈ us ∧ u.name = name := by
  simp only [keyed, List.mem_map, Prod.mk.injEq]
  exact ⟨fun ⟨_, hu, hname, rfl⟩ => ⟨hu, hname⟩, fun ⟨hu, hname⟩ => ⟨u, hu, hname, rfl⟩⟩

theorem ascends_keyed : KeyOrder.Ascends (keyed us) ↔ us.Pairwise fun t u => t.name < u.name :=
  List.pairwise_map

theorem latest_ofList : Latest ts (ofList ts).tools := by
  have hascends : KeyOrder.Ascends (keyed (ofList ts).tools) :=
    keyed_ofList ▸ KeyOrder.ascends_ofList
  refine ⟨ascends_keyed.mp hascends, fun u => ?_⟩
  have hreverse : (keyed ts).reverse = keyed ts.reverse := List.map_reverse.symm
  have hmem := lookup_eq_some_iff_mem hascends.nodup (k := u.name) (v := u)
  rw [keyed_ofList, KeyOrder.lookup_ofList_last, hreverse, lookup_keyed, ← keyed_ofList,
    mem_keyed] at hmem
  exact ⟨fun hu => hmem.mpr ⟨hu, rfl⟩, fun hu => (hmem.mp hu).1⟩

theorem Latest.lookup (h : Latest ts us) {name : String} :
    (keyed us).lookup name = ts.reverse.find? (·.name = name) := by
  refine Option.ext fun u => ?_
  rw [lookup_eq_some_iff_mem (ascends_keyed.mpr h.ascends).nodup, mem_keyed, h.mem]
  refine ⟨fun ⟨hu, hname⟩ => hname ▸ hu, fun hu => ?_⟩
  have hname : u.name = name := by simpa using List.find?_some hu
  exact ⟨hname.symm ▸ hu, hname⟩

theorem Latest.unique {us' : List Tool} (h : Latest ts us) (h' : Latest ts us') : us = us' := by
  have hkeyed : keyed us = keyed us' :=
    (ascends_keyed.mpr h.ascends).ext (ascends_keyed.mpr h'.ascends) fun name =>
      h.lookup.trans h'.lookup.symm
  simpa [keyed, Function.comp_def] using congrArg (List.map Prod.snd) hkeyed

theorem Latest.eq_nil (h : Latest ts []) : ts = [] := by
  refine List.eq_nil_iff_forall_not_mem.mpr fun t ht => ?_
  have hnone : ts.reverse.find? (·.name = t.name) = none := h.lookup.symm
  have hne := List.find?_eq_none.mp hnone t (List.mem_reverse.mpr ht)
  exact hne (decide_eq_true rfl)

theorem page_eq {b : Toolbox} {offset limit : Nat} : b.page offset limit =
    (((b.tools.drop offset).take (max limit 1)).map Tool.definition,
      if offset + max limit 1 < b.size then some (offset + max limit 1) else none) := by
  have hpos : 0 < max limit 1 := Nat.le_max_right ..
  have hlength : ((b.tools.drop offset).take (max limit 1)).length =
      min (max limit 1) (b.size - offset) := by
    rw [List.length_take, List.length_drop, size]
  refine Prod.ext rfl ?_
  simp only [page, List.ne_nil_iff_length_pos, hlength]
  split <;> split <;> simp only [Option.some.injEq, reduceCtorEq] <;> omega

end Toolbox

theorem Text.unsigned?_toString {n max : Nat} (h : n ≤ max) :
    unsigned? max (toString n).toList = some n := by
  have hplus : after? ['+'] (Nat.toDigits 10 n) = none := after?_sign rfl digits_toDigits
  have hread : natOf? (Nat.toDigits 10 n) = some n := natOf?_eq_some_iff.mpr digits_toDigits
  rw [Nat.toString_eq_repr, Nat.toList_repr, unsigned?, hplus, Option.getD_none, hread,
    Option.filter_some, if_pos (decide_eq_true h)]

namespace PageParams

variable {fields : List (String × Value)} {c : String}

theorem decode_bare (h : ∀ v ∈ fields.lookup "cursor", v = .null) :
    decode (.object fields) = .ok {} := by
  refine mapError_eq_ok.mpr (map_eq_ok.mpr ⟨none, Layout.gather_field.mpr ?_, rfl⟩)
  cases hv : fields.lookup "cursor" with
  | none => exact .inl ⟨rfl, rfl⟩
  | some v =>
      obtain rfl := h v hv
      exact .inr ⟨_, rfl, rfl⟩

theorem decode_cursor (h : fields.lookup "cursor" = some (.string c)) :
    decode (.object fields) = .ok ⟨some c⟩ :=
  mapError_eq_ok.mpr (map_eq_ok.mpr ⟨some c, Layout.gather_field.mpr (.inr ⟨_, h, rfl⟩), rfl⟩)

end PageParams

namespace Gateway

variable {g : Gateway} {ts : List Tool} {params : Option Value} {cursor : Option String}
  {c : String} {n : Nat} {page : Value} {pages pages' : List Value}

def toolsOf (page : Value) : List Value := ((page.get? "tools").bind Value.asArray?).getD []

def pageSize (g : Gateway) : Nat := max g.settings.toolsPageSize 1

/-- The pages that a client is shown that goes on from a cursor to the end. -/
inductive Paged (g : Gateway) (params : Option Value) : Option String → List Value → Prop
  | last {cursor : Option String} {page : Value} : g.listTools (withCursor params cursor) = .ok page →
      nextCursor? page = none → Paged g params cursor [page]
  | more {cursor : Option String} {c : String} {page : Value} {pages : List Value} :
      g.listTools (withCursor params cursor) = .ok page →
      nextCursor? page = some c → Paged g params (some c) pages →
      Paged g params cursor (page :: pages)

theorem Paged.unique (h : Paged g params cursor pages) (h' : Paged g params cursor pages') :
    pages = pages' := by
  induction h generalizing pages' with
  | last hpage hnext =>
      cases h' with
      | last hpage' _ => rw [Except.ok.inj (hpage.symm.trans hpage')]
      | more hpage' hnext' _ =>
          obtain rfl := Except.ok.inj (hpage.symm.trans hpage')
          rw [hnext] at hnext'
          cases hnext'
  | more hpage hnext _ ih =>
      cases h' with
      | last hpage' hnext' =>
          obtain rfl := Except.ok.inj (hpage.symm.trans hpage')
          rw [hnext] at hnext'
          cases hnext'
      | more hpage' hnext' hrest =>
          obtain rfl := Except.ok.inj (hpage.symm.trans hpage')
          rw [hnext] at hnext'
          cases hnext'
          rw [ih hrest]

/-- That the params of a request ask for the tools from an offset on. -/
def AsksFrom (params : Option Value) (n : Nat) : Prop :=
  ∃ p, decodeOptionalParams {} PageParams.decode params = .ok p ∧ offsetOf p.cursor = .ok n

structure IsPage (g : Gateway) (n : Nat) (page : Value) : Prop where
  tools : toolsOf page = ((g.toolbox.tools.drop n).take g.pageSize).map (·.definition.encode)
  next : nextCursor? page =
    if n + g.pageSize < g.toolbox.size then some (toString (n + g.pageSize)) else none

theorem listTools_page (h : AsksFrom params n) :
    ∃ page, g.listTools params = .ok page ∧ g.IsPage n page := by
  obtain ⟨p, hp, hn⟩ := h
  refine ⟨.ofPresent [("tools", some (.array (((g.toolbox.tools.drop n).take g.pageSize).map
      (·.definition.encode)))), ("nextCursor", if n + g.pageSize < g.toolbox.size then
        some (.string (toString (n + g.pageSize))) else none)], ?_, ?_, ?_⟩
  · refine bind_eq_ok.mpr ⟨p, hp, bind_eq_ok.mpr ⟨n, hn, ?_⟩⟩
    rw [Toolbox.page_eq]
    dsimp only
    rw [List.map_map, Option.map_if]
    rfl
  · rw [toolsOf, Value.get?_ofPresent (by simp)]
    rfl
  · rw [nextCursor?, Value.get?_ofPresent (by simp)]
    split
    · simp [lookup_cons_key, Value.asString?]
    · rfl

def Cursorless (params : Option Value) : Prop :=
  params = none ∨
    ∃ fields, params = some (.object fields) ∧ ∀ v ∈ fields.lookup "cursor", v = .null

theorem Cursorless.asksFrom_start (h : Cursorless params) :
    AsksFrom (withCursor params none) 0 := by
  obtain rfl | ⟨fields, rfl, hfields⟩ := h
  · exact ⟨{}, rfl, rfl⟩
  · exact ⟨{}, mapError_eq_ok.mpr (PageParams.decode_bare hfields), rfl⟩

theorem offsetOf_some (h : Text.unsigned? (Nat.pow 2 64 - 1) c.toList = some n) :
    offsetOf (some c) = .ok n := by
  unfold offsetOf
  split
  · contradiction
  · rename_i heq
    cases heq
    cases h
  · rename_i heq
    cases heq
    rw [h]

theorem Cursorless.asksFrom_next (h : Cursorless params) (hn : n < Nat.pow 2 64) :
    AsksFrom (withCursor params (some (toString n))) n := by
  have hoffset := offsetOf_some (Text.unsigned?_toString (Nat.le_sub_one_of_lt hn))
  have hfields : ∃ fields, withCursor params (some (toString n)) =
      some (.object (KeyOrder.insert "cursor" (.string (toString n)) fields)) := by
    obtain rfl | ⟨fields, rfl, -⟩ := h
    · exact ⟨[], rfl⟩
    · exact ⟨fields, rfl⟩
  obtain ⟨fields, hfields⟩ := hfields
  rw [hfields]
  refine ⟨⟨some (toString n)⟩, mapError_eq_ok.mpr (PageParams.decode_cursor ?_), hoffset⟩
  rw [KeyOrder.lookup_insert, if_pos rfl]

theorem paged_from (hparams : Cursorless params) (hsize : g.toolbox.size < Nat.pow 2 64)
    (hn : AsksFrom (withCursor params cursor) n) :
    ∃ pages, Paged g params cursor pages ∧
      pages.flatMap toolsOf = (g.toolbox.tools.drop n).map (·.definition.encode) ∧
      ∀ page ∈ pages, toolsOf page = [] → pages = [page] ∧ g.toolbox.size ≤ n := by
  induction hleft : g.toolbox.size - n using Nat.strongRecOn generalizing cursor n with
  | ind left ih =>
  obtain ⟨page, hpage, htools, hnext⟩ := listTools_page (g := g) hn
  have hpos : 0 < g.pageSize := Nat.le_max_right ..
  by_cases hmore : n + g.pageSize < g.toolbox.size
  · rw [if_pos hmore] at hnext
    have hasks := hparams.asksFrom_next (Nat.lt_trans hmore hsize)
    obtain ⟨pages, hpages, hall, hempty⟩ := ih _ (by omega) hasks rfl
    refine ⟨page :: pages, .more hpage hnext hpages, ?_, ?_⟩
    · rw [List.flatMap_cons, hall, htools, ← List.map_append, ← List.drop_drop,
        List.take_append_drop]
    · intro page' hpage' hnone
      exfalso
      rcases List.mem_cons.mp hpage' with rfl | hpage'
      · rw [htools, List.map_eq_nil_iff, List.take_eq_nil_iff, List.drop_eq_nil_iff] at hnone
        unfold Toolbox.size at hmore
        omega
      · have := (hempty page' hpage' hnone).2
        omega
  · rw [if_neg hmore] at hnext
    have hrest : (g.toolbox.tools.drop n).take g.pageSize = g.toolbox.tools.drop n := by
      refine List.take_of_length_le ?_
      rw [List.length_drop]
      unfold Toolbox.size at hmore
      omega
    rw [hrest] at htools
    refine ⟨[page], .last hpage hnext, ?_, ?_⟩
    · rw [List.flatMap_singleton, htools]
    · intro page' hpage' hnone
      obtain rfl := List.mem_singleton.mp hpage'
      rw [htools, List.map_eq_nil_iff, List.drop_eq_nil_iff] at hnone
      exact ⟨rfl, hnone⟩

theorem AsksFrom.bounded (h : AsksFrom params n) : n < Nat.pow 2 64 := by
  obtain ⟨p, -, hn⟩ := h
  unfold offsetOf at hn
  split at hn
  · cases hn
    decide
  · cases hn
    decide
  · split at hn <;> cases hn
    rename_i hn
    have hle := (Option.filter_eq_some_iff.mp hn).2
    exact Nat.lt_of_le_of_lt (of_decide_eq_true hle) (by decide)

/-- Whatever tools have been registered and however few there are on a page, the walk from the start
ends; it shows the last tool of each name once, by their names, and no page is empty but the only
one of an empty toolbox. Any other cursor that is a number of 64 bits leads to the tools from
there on, and to no offset beyond that size. -/
theorem listing_complete (hg : g.toolbox = .ofList ts) (hsize : g.toolbox.size < Nat.pow 2 64) :
    ∃ us, Toolbox.Latest ts us ∧
      (∀ params, Cursorless params → ∃ pages, g.Paged params none pages ∧
        (∀ pages', g.Paged params none pages' → pages' = pages) ∧
        pages.flatMap toolsOf = us.map (·.definition.encode) ∧
        ∀ page ∈ pages, toolsOf page = [] → pages = [page] ∧ ts = []) ∧
      (∀ params c n, decodeOptionalParams {} PageParams.decode params = .ok ⟨some c⟩ →
        Text.unsigned? (Nat.pow 2 64 - 1) c.toList = some n → AsksFrom params n) ∧
      ∀ params n, AsksFrom params n → ∃ page, g.listTools params = .ok page ∧
        toolsOf page = ((us.drop n).take g.pageSize).map (·.definition.encode) ∧
        nextCursor? page =
          (if n + g.pageSize < us.length then some (toString (n + g.pageSize)) else none) ∧
        n + (toolsOf page).length < Nat.pow 2 64 := by
  have hlatest : Toolbox.Latest ts g.toolbox.tools := hg ▸ Toolbox.latest_ofList
  refine ⟨g.toolbox.tools, hlatest, fun params hparams => ?_, fun params c n hp hc => ?_,
    fun params n hn => ?_⟩
  · obtain ⟨pages, hpages, hall, hempty⟩ := paged_from hparams hsize hparams.asksFrom_start
    refine ⟨pages, hpages, fun pages' h => h.unique hpages, hall, fun page hpage hnone => ?_⟩
    obtain ⟨hsingle, hzero⟩ := hempty page hpage hnone
    have hnil := List.eq_nil_of_length_eq_zero (Nat.le_zero.mp hzero)
    exact ⟨hsingle, (hnil ▸ hlatest).eq_nil⟩
  · exact ⟨_, hp, offsetOf_some hc⟩
  · obtain ⟨page, hpage, htools, hnext⟩ := listTools_page (g := g) hn
    refine ⟨page, hpage, htools, hnext, ?_⟩
    have hbound := hn.bounded
    rw [htools, List.length_map, List.length_take, List.length_drop]
    unfold Toolbox.size at hsize
    omega

theorem listing_complete_replaced :
    let again : Tool := { Tool.echo with definition := ⟨"echo", "Echo", Tool.openSchema⟩ }
    let g := Gateway.new { toolsPageSize := 0 } [again]
    (g.toolbox = .ofList [Tool.echo, Tool.status, again] ∧ g.toolbox.size < Nat.pow 2 64) ∧
      ∃ pages, g.Paged none none pages ∧
        pages.flatMap toolsOf = [again.definition.encode, Tool.status.definition.encode] := by
  intro again g
  have hsize : g.toolbox.size < Nat.pow 2 64 := by decide +kernel
  obtain ⟨us, hus, hwalk, -⟩ := listing_complete (g := g) rfl hsize
  obtain ⟨pages, hpages, -, hall, -⟩ := hwalk none (.inl rfl)
  refine ⟨⟨rfl, hsize⟩, pages, hpages, hall.trans ?_⟩
  rw [hus.unique Toolbox.latest_ofList]
  decide +kernel

end Gateway

end AgentGateway
