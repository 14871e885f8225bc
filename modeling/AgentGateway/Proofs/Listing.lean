import AgentGateway.Proofs.Lending
import AgentGateway.Proofs.Reports
/-!
Walks through the pages of a listing, whatever the peer answers. What a walk comes upon follows from
the results of its calls, one after the other; a walk that ends by itself ends with the last page or
with an error, so that a listing which was cut short can be told from one that is complete.
-/

namespace AgentGateway

open scoped List

namespace Message

def IsBlank (m : Message) : Prop := m.error = none ∧ (m.result = none ∨ m.result = some .null)

def HasPage (v : Json.Value) (m : Message) : Prop :=
  m.error = none ∧ m.result = some v ∧ v ≠ .null

theorem IsBlank.not_hasPage {m : Message} {v : Json.Value} (h : m.IsBlank) : ¬ m.HasPage v := by
  rintro ⟨-, hv, hne⟩
  rcases h.2 with hnone | hnull
  · cases hnone.symm.trans hv
  · cases hnull.symm.trans hv
    exact hne rfl

end Message

namespace PageWalk

def Blank (r : Except CallError Message) : Prop := ∃ m, r = .ok m ∧ m.IsBlank

/-- The results after which a walk goes on, with the number of blank ones at the end and the items
that the walk has come upon. -/
inductive Goes (limit : Nat) : List (Except CallError Message) → Nat → List Message → Prop
  | start : Goes limit [] 0 []
  | turned {rs n ys m v} : Goes limit rs n ys → m.HasPage v → (nextCursor? v).isSome = true →
      Goes limit (rs ++ [.ok m]) 0 (ys ++ [m])
  | skipped {rs n ys m} : Goes limit rs n ys → m.IsBlank → n + 1 < limit →
      Goes limit (rs ++ [.ok m]) (n + 1) ys

/-- The results after which a walk has ended by itself, with its items. -/
inductive Over (limit : Nat) : List (Except CallError Message) → List Message → Prop
  | failed {rs n ys e error} : Goes limit rs n ys →
      Over limit (rs ++ [.error e]) (ys ++ [.failure none error])
  | refused {rs n ys m} : Goes limit rs n ys → m.error.isSome = true →
      Over limit (rs ++ [.ok m]) (ys ++ [m])
  | finished {rs n ys m v} : Goes limit rs n ys → m.HasPage v → nextCursor? v = none →
      Over limit (rs ++ [.ok m]) (ys ++ [m])
  | gaveUp {rs n ys m error} : Goes limit rs n ys → m.IsBlank → limit ≤ n + 1 →
      Over limit (rs ++ [.ok m]) (ys ++ [.failure none error])

variable {limit n : Nat} {rs pre run post : List (Except CallError Message)} {ys : List Message}
  {last : Except CallError Message} {w : PageWalk}

theorem Goes.pages (h : Goes limit rs n ys) : ∀ y ∈ ys, ∃ v, y.HasPage v := by
  induction h with
  | start => simp
  | turned _ hpage _ ih =>
      intro y hy
      rcases List.mem_append.mp hy with hy | hy
      · exact ih y hy
      · exact List.mem_singleton.mp hy ▸ ⟨_, hpage⟩
  | skipped _ _ _ ih => exact ih

theorem Goes.heard (h : Goes limit rs n ys) : ys <+ rs.filterMap Except.toOption := by
  induction h with
  | start => exact .slnil
  | turned _ _ _ ih =>
      rw [filterMap_snoc]
      exact ih.append (.refl _)
  | skipped _ _ _ ih =>
      rw [filterMap_snoc]
      exact ih.trans (List.sublist_append_left ..)

theorem Goes.skipped_lt (h : Goes limit rs n ys) : n = 0 ∨ n < limit := by
  cases h with
  | start | turned _ _ _ => exact .inl rfl
  | skipped _ _ hlt => exact .inr hlt

theorem snoc_eq_append {α : Type} {l pre run post : List α} {a : α}
    (h : l ++ [a] = pre ++ run ++ post) : (post ≠ [] ∧ ∃ post', l = pre ++ run ++ post') ∨
      post = [] ∧ (run = [] ∨ ∃ first, run = first ++ [a] ∧ l = pre ++ first ++ []) := by
  rcases post.eq_nil_or_concat with rfl | ⟨post, b, rfl⟩
  · refine .inr ⟨rfl, ?_⟩
    rcases run.eq_nil_or_concat with hrun | ⟨first, b, rfl⟩
    · exact .inl hrun
    · simp only [List.concat_eq_append, List.append_nil, ← List.append_assoc] at h
      obtain ⟨hl, hb⟩ := List.append_inj' h rfl
      obtain rfl := List.singleton_inj.mp hb
      exact .inr ⟨first, List.concat_eq_append, by rw [hl, List.append_nil]⟩
  · rw [List.concat_eq_append, ← List.append_assoc] at h
    exact .inl ⟨by simp, post, (List.append_inj' h rfl).1⟩

theorem Goes.blank_lt (h : Goes limit rs n ys) (hrs : rs = pre ++ run ++ post)
    (hblank : ∀ r ∈ run, Blank r) : run.length < max 1 limit ∧ (post = [] → run.length ≤ n) := by
  have hpos : 0 < max 1 limit := Nat.lt_of_lt_of_le Nat.zero_lt_one (Nat.le_max_left ..)
  induction h generalizing run post with
  | start =>
      obtain ⟨hrs, -⟩ := List.append_eq_nil_iff.mp hrs.symm
      obtain ⟨-, rfl⟩ := List.append_eq_nil_iff.mp hrs
      exact ⟨hpos, fun _ => Nat.le_refl _⟩
  | turned _ hpage _ ih =>
      rcases snoc_eq_append hrs with ⟨hpost, post', hrs⟩ | ⟨-, rfl | ⟨first, rfl, -⟩⟩
      · exact ⟨(ih hrs hblank).1, fun h => absurd h hpost⟩
      · exact ⟨hpos, fun _ => Nat.zero_le _⟩
      · obtain ⟨m, hm, hb⟩ := hblank _ (List.mem_append_right _ (List.mem_singleton_self _))
        cases hm
        exact (hb.not_hasPage hpage).elim
  | @skipped rs n ys m _ _ hlt ih =>
      rcases snoc_eq_append hrs with ⟨hpost, post', hrs⟩ | ⟨-, rfl | ⟨first, rfl, hfirst⟩⟩
      · exact ⟨(ih hrs hblank).1, fun h => absurd h hpost⟩
      · exact ⟨hpos, fun _ => Nat.zero_le _⟩
      · have hle := (ih hfirst fun r hr => hblank r (List.mem_append_left _ hr)).2 rfl
        rw [List.length_append, List.length_singleton]
        exact ⟨by omega, fun _ => by omega⟩

theorem Goes.blank_snoc (h : Goes limit rs n ys) (hrs : rs ++ [last] = pre ++ run ++ post)
    (hblank : ∀ r ∈ run, Blank r) :
    run.length < max 1 limit ∨ post = [] ∧ Blank last ∧ run.length ≤ n + 1 := by
  rcases snoc_eq_append hrs with ⟨-, post', hrs⟩ | ⟨hpost, rfl | ⟨first, rfl, hfirst⟩⟩
  · exact .inl (h.blank_lt hrs hblank).1
  · exact .inl (Nat.lt_of_lt_of_le Nat.zero_lt_one (Nat.le_max_left ..))
  · have hle := (h.blank_lt hfirst fun r hr => hblank r (List.mem_append_left _ hr)).2 rfl
    refine .inr ⟨hpost, hblank _ (List.mem_append_right _ (List.mem_singleton_self _)), ?_⟩
    rw [List.length_append, List.length_singleton]
    exact Nat.succ_le_succ hle

theorem Over.items (h : Over limit rs ys) : ∃ first last, ys = first ++ [last] ∧
    (∀ y ∈ first, ∃ v, y.HasPage v) ∧
    (last.error.isSome = true ∨ ∃ v, last.HasPage v ∧ nextCursor? v = none) := by
  cases h with
  | failed hgo => exact ⟨_, _, rfl, hgo.pages, .inl rfl⟩
  | refused hgo herror => exact ⟨_, _, rfl, hgo.pages, .inl herror⟩
  | finished hgo hpage hlast => exact ⟨_, _, rfl, hgo.pages, .inr ⟨_, hpage, hlast⟩⟩
  | gaveUp hgo _ _ => exact ⟨_, _, rfl, hgo.pages, .inl rfl⟩

theorem Over.heard (h : Over limit rs ys) :
    ys.filter (·.error.isNone) <+ rs.filterMap Except.toOption := by
  cases h with
  | failed hgo | gaveUp hgo _ _ =>
      rw [List.filter_append, filterMap_snoc]
      exact (List.filter_sublist.trans hgo.heard).append (List.nil_sublist _)
  | refused hgo _ | finished hgo _ _ =>
      rw [List.filter_append, filterMap_snoc]
      exact (List.filter_sublist.trans hgo.heard).append List.filter_sublist

theorem Over.blank_le (h : Over limit rs ys) (hrs : rs = pre ++ run ++ post)
    (hblank : ∀ r ∈ run, Blank r) : run.length < max 1 limit ∨
      run.length = max 1 limit ∧ post = [] ∧ ∃ error, ys.getLast? = some (.failure none error) := by
  cases h with
  | failed hgo =>
      refine .inl ((hgo.blank_snoc hrs hblank).resolve_right ?_)
      rintro ⟨-, ⟨m, hm, -⟩, -⟩
      cases hm
  | refused hgo herror =>
      refine .inl ((hgo.blank_snoc hrs hblank).resolve_right ?_)
      rintro ⟨-, ⟨m, hm, hb⟩, -⟩
      cases hm
      rw [hb.1] at herror
      cases herror
  | finished hgo hpage _ =>
      refine .inl ((hgo.blank_snoc hrs hblank).resolve_right ?_)
      rintro ⟨-, ⟨m, hm, hb⟩, -⟩
      cases hm
      exact hb.not_hasPage hpage
  | @gaveUp rs n ys m error hgo _ _ =>
      rcases hgo.blank_snoc hrs hblank with hlt | ⟨hpost, -, hle⟩
      · exact .inl hlt
      · have hn := hgo.skipped_lt
        rcases Nat.lt_or_ge run.length (max 1 limit) with hlt | hge
        · exact .inl hlt
        · exact .inr ⟨by omega, hpost, error, by simp⟩

theorem follow_spec (h : Goes w.maxSkipped rs w.skipped ys) (r : Except CallError Message) :
    ∃ new, (w.follow r).items = w.items ++ new ∧ (w.follow r).maxSkipped = w.maxSkipped ∧
      ((w.follow r).call.isSome = true ∧
          Goes w.maxSkipped (rs ++ [r]) (w.follow r).skipped (ys ++ new) ∨
        (w.follow r).call = none ∧ Over w.maxSkipped (rs ++ [r]) (ys ++ new)) := by
  have blank {m : Message} (hb : m.IsBlank) : ∃ new, w.skip.items = w.items ++ new ∧
      w.skip.maxSkipped = w.maxSkipped ∧ (w.skip.call.isSome = true ∧
          Goes w.maxSkipped (rs ++ [.ok m]) w.skip.skipped (ys ++ new) ∨
        w.skip.call = none ∧ Over w.maxSkipped (rs ++ [.ok m]) (ys ++ new)) := by
    unfold skip
    dsimp only
    split
    · rename_i hle
      exact ⟨_, rfl, rfl, .inr ⟨rfl, Over.gaveUp h hb hle⟩⟩
    · rename_i hlt
      refine ⟨[], (List.append_nil _).symm, rfl, .inl ⟨rfl, ?_⟩⟩
      rw [List.append_nil]
      exact h.skipped hb (Nat.not_le.mp hlt)
  cases r with
  | error e => exact ⟨_, rfl, rfl, .inr ⟨rfl, Over.failed h⟩⟩
  | ok m =>
      simp only [follow]
      split
      · rename_i herror
        exact ⟨_, rfl, rfl, .inr ⟨rfl, Over.refused h herror⟩⟩
      · rename_i herror
        have herror : m.error = none := by simpa using herror
        split
        · rename_i hresult
          exact blank ⟨herror, .inl hresult⟩
        · rename_i hresult
          exact blank ⟨herror, .inr hresult⟩
        · rename_i v hne hv
          have hpage : m.HasPage v := ⟨herror, hv, hne⟩
          unfold turn
          split
          · rename_i hlast
            exact ⟨_, rfl, rfl, .inr ⟨rfl, Over.finished h hpage hlast⟩⟩
          · rename_i c hcursor
            exact ⟨_, rfl, rfl, .inl ⟨rfl, h.turned hpage (by rw [hcursor]; rfl)⟩⟩

end PageWalk

namespace Moment

def Halts (p : ProcessId) (m : Moment) : Prop :=
  m.act = .control p ∧ ∃ w, m.before.walkOf? p = some w ∧ w.call.isSome = true ∧
    m.before.isSignalled w.token = true

def followed? (p : ProcessId) (m : Moment) : Option (Except CallError Message) :=
  match m.act with
  | .control q =>
    if q = p then (m.before.walkOf? p).bind fun w =>
      if m.before.isSignalled w.token then none else (Process.pages w).result?
    else none
  | _ => none

def yielded (p : ProcessId) (m : Moment) : List Message :=
  match m.act with
  | .control q =>
    if q = p then match m.before.walkOf? p, m.after.walkOf? p with
      | some w, some w' => w'.items.drop w.items.length
      | _, _ => []
    else []
  | _ => []

variable {g g' : Gateway} {a : Act} {p : ProcessId} {w w' : PageWalk}

theorem followed?_control (hw : g.walkOf? p = some w) :
    followed? p ⟨g, .control p, g'⟩ =
      if g.isSignalled w.token then none else (Process.pages w).result? := by
  simp [followed?, hw]

theorem yielded_control (hw : g.walkOf? p = some w) (hw' : g'.walkOf? p = some w') :
    yielded p ⟨g, .control p, g'⟩ = w'.items.drop w.items.length := by
  simp [yielded, hw, hw']

theorem quiet_of_none (hw : g.walkOf? p = none) :
    followed? p ⟨g, a, g'⟩ = none ∧ yielded p ⟨g, a, g'⟩ = [] := by
  cases a with
  | control q => simp [followed?, yielded, hw]
  | _ => exact ⟨rfl, rfl⟩

theorem quiet_of_other (ha : a ≠ .control p) :
    followed? p ⟨g, a, g'⟩ = none ∧ yielded p ⟨g, a, g'⟩ = [] := by
  cases a with
  | control q =>
      have hq : q ≠ p := fun heq => ha (congrArg Act.control heq)
      simp [followed?, yielded, hq]
  | _ => exact ⟨rfl, rfl⟩

end Moment

def followedIn (ms : List Moment) (p : ProcessId) : List (Except CallError Message) :=
  ms.filterMap (Moment.followed? p)

def yieldedIn (ms : List Moment) (p : ProcessId) : List Message := ms.flatMap (Moment.yielded p)

namespace Gateway

variable {g g' g₁ : Gateway} {a : Act} {p : ProcessId} {w w' : PageWalk} {c c' : Call}
  {sessionId method : String} {params : Option Json.Value} {client : ClientSettings}

theorem walkOf?_eq (h : g.process? p = some (.pages w)) : g.walkOf? p = some w := by
  simp [walkOf?, h]

theorem process?_listPages (hn : g.Numbered) :
    (g.listPages sessionId method params client).2.process? g.nextProcess =
      some (.pages (.start sessionId method params client.requestTimeout client.maxSkippedPages
        g.nextToken)) := by
  have hn : g.takeToken.2.Numbered := hn
  exact (process?_spawn hn).trans (if_pos rfl)

theorem walk?_cases (h : g.walk? p w = some (w', g')) : ∃ c, w.call = some c ∧
    (g.isSignalled w.token = true ∧ w' = { w with call := none } ∨
      g.isSignalled w.token = false ∧
        ((∃ r, c.stage = .done r ∧ w' = w.follow r) ∨
          (∀ r, c.stage ≠ .done r) ∧
            ∃ c', g.call? p c = some (c', g') ∧ w' = { w with call := some c' })) := by
  unfold walk? at h
  split at h
  · cases h
  · rename_i c hc
    refine ⟨c, hc, ?_⟩
    split at h
    · rename_i hsignalled
      cases h
      exact .inl ⟨hsignalled, rfl⟩
    · rename_i hsignalled
      refine .inr ⟨by simpa using hsignalled, ?_⟩
      split at h
      · rename_i r hdone
        cases h
        exact .inl ⟨r, hdone, rfl⟩
      · rename_i hgoing
        obtain ⟨⟨c', g₁⟩, hcall, heq⟩ := Option.map_eq_some_iff.mp h
        cases heq
        exact .inr ⟨hgoing, c', hcall, rfl⟩

theorem result?_of_done {r : Except CallError Message} (hc : w.call = some c)
    (hdone : c.stage = .done r) : (Process.pages w).result? = some r := by
  simp [Process.result?, Process.call?, hc, hdone]

theorem result?_of_going (hc : w.call = some c) (hnot : ∀ r, c.stage ≠ .done r) :
    (Process.pages w).result? = none := by
  simp [Process.result?, Process.call?, hc]

theorem control_of_walk (hw : g.walkOf? p = some w) (hstep : g.control? p = some g') :
    ∃ w' g₁, g.walk? p w = some (w', g₁) ∧ g'.walkOf? p = some w' ∧ g'.desk = g₁.desk := by
  have hx := process?_of_walkOf? hw
  obtain ⟨x, hx', hstep⟩ := Option.bind_eq_some_iff.mp hstep
  cases hx.symm.trans hx'
  obtain ⟨w', g₁, hwalk, rfl⟩ := of_staged hstep
  refine ⟨w', g₁, hwalk, walkOf?_eq ?_, desk_setProcess⟩
  rw [process?_setProcess, if_pos rfl, process?_of_inner (walk?_spec hwalk).2, hx]
  rfl

theorem walk_perform (hn : g.Numbered) (hlt : p < g.nextProcess) (hstep : g.perform a = some g')
    (hw' : g'.walkOf? p = some w') : ∃ w, g.walkOf? p = some w ∧
      (a ≠ .control p → ∃ items, w' = { w with items }) := by
  have hy := process?_of_walkOf? hw'
  by_cases ha : a = .control p
  · subst ha
    obtain ⟨x, hx, hstep⟩ := Option.bind_eq_some_iff.mp hstep
    cases x with
    | pages w => exact ⟨w, walkOf?_eq hx, fun h => absurd rfl h⟩
    | message | answer | sessionLoop | subscription | call | notice | sweeper =>
        obtain ⟨z, g₁, -, rfl⟩ := of_staged hstep
        rw [process?_setProcess, if_pos rfl, Option.map_eq_some_iff] at hy
        obtain ⟨-, -, hy⟩ := hy
        cases hy
  · obtain ⟨x, hx, hk⟩ := kindred_begun hn hstep ha hlt hy
    generalize hz : Process.pages w' = y at hk
    cases hk with
    | same =>
        subst hz
        exact ⟨w', walkOf?_eq hx, fun _ => ⟨w'.items, rfl⟩⟩
    | items =>
        cases hz
        exact ⟨_, walkOf?_eq hx, fun _ => ⟨_, rfl⟩⟩
    | inbound => cases hz
    | settled =>
        unfold Process.settle at hz
        split at hz
        · cases hz
        · cases hz
        · split at hz <;> cases hz
        · subst hz
          exact ⟨w', walkOf?_eq hx, fun _ => ⟨w'.items, rfl⟩⟩
    | invocation =>
        unfold Process.withInvocation at hz
        split at hz
        · cases hz
        · cases hz
        · split at hz <;> cases hz
        · cases hz
        · subst hz
          exact ⟨w', walkOf?_eq hx, fun _ => ⟨w'.items, rfl⟩⟩

end Gateway

open PageWalk

def Walked (limit : Nat) (p : ProcessId) (ms : List Moment) (g : Gateway) : Prop :=
  (∃ n, Goes limit (followedIn ms p) n (yieldedIn ms p) ∧
    ∀ w, g.walkOf? p = some w → w.maxSkipped = limit ∧
      (w.call.isSome = true ∧ w.skipped = n ∨ w.call = none ∧ ∃ m ∈ ms, m.Halts p)) ∨
  Over limit (followedIn ms p) (yieldedIn ms p) ∧ ∀ w, g.walkOf? p = some w → w.call = none

section Run

open Gateway

variable {g₀ g g' : Gateway} {ms : List Moment} {a : Act} {p : ProcessId} {limit : Nat}
  {w w' : PageWalk}

theorem Walked.keep (h : Walked limit p ms g)
    (hquiet : Moment.followed? p ⟨g, a, g'⟩ = none ∧ Moment.yielded p ⟨g, a, g'⟩ = [])
    (hkeep : ∀ w', g'.walkOf? p = some w' → ∃ w, g.walkOf? p = some w ∧
      w'.maxSkipped = w.maxSkipped ∧ w'.skipped = w.skipped ∧
        (w'.call.isSome = w.call.isSome ∨ w'.call = none ∧ Moment.Halts p ⟨g, a, g'⟩)) :
    Walked limit p (ms ++ [⟨g, a, g'⟩]) g' := by
  have hf : followedIn (ms ++ [⟨g, a, g'⟩]) p = followedIn ms p := by
    rw [followedIn, filterMap_snoc, hquiet.1]
    exact List.append_nil _
  have hy : yieldedIn (ms ++ [⟨g, a, g'⟩]) p = yieldedIn ms p := by
    simp [yieldedIn, hquiet.2]
  rw [Walked, hf, hy]
  refine h.imp ?_ ?_
  · rintro ⟨n, hgo, hw⟩
    refine ⟨n, hgo, fun w' hw' => ?_⟩
    obtain ⟨w, hwg, hmax, hskipped, hcall⟩ := hkeep w' hw'
    obtain ⟨hlimit, hstate⟩ := hw w hwg
    refine ⟨hmax.trans hlimit, ?_⟩
    rcases hcall with hcall | ⟨hnone, hhalts⟩
    · rcases hstate with ⟨hgoing, hn⟩ | ⟨hnone, m, hm, hhalts⟩
      · exact .inl ⟨hcall.trans hgoing, hskipped.trans hn⟩
      · rw [hnone] at hcall
        exact .inr ⟨Option.isSome_eq_false_iff.mp hcall |> Option.isNone_iff_eq_none.mp, m,
          List.mem_append_left _ hm, hhalts⟩
    · exact .inr ⟨hnone, _, List.mem_append_right _ (List.mem_singleton_self _), hhalts⟩
  · rintro ⟨hover, hw⟩
    refine ⟨hover, fun w' hw' => ?_⟩
    obtain ⟨w, hwg, -, -, hcall⟩ := hkeep w' hw'
    rcases hcall with hcall | ⟨hnone, -⟩
    · rw [hw w hwg] at hcall
      exact Option.isSome_eq_false_iff.mp hcall |> Option.isNone_iff_eq_none.mp
    · exact hnone

theorem Walked.follow {r : Except CallError Message} (h : Walked limit p ms g)
    (hw : g.walkOf? p = some w) (hcall : w.call.isSome = true)
    (hfollowed : Moment.followed? p ⟨g, .control p, g'⟩ = some r)
    (hw' : g'.walkOf? p = some (w.follow r)) :
    Walked limit p (ms ++ [⟨g, .control p, g'⟩]) g' := by
  have hnot : w.call ≠ none := Option.isSome_iff_ne_none.mp hcall
  -- the call was running, so that the walk cannot have been over
  obtain ⟨n, hgo, hwalks⟩ := h.resolve_right fun hover => hnot (hover.2 w hw)
  obtain ⟨rfl, hstate⟩ := hwalks w hw
  obtain ⟨-, rfl⟩ := hstate.resolve_right fun hhalted => hnot hhalted.1
  obtain ⟨new, hitems, hmax, hfate⟩ := follow_spec hgo r
  have hf : followedIn (ms ++ [⟨g, .control p, g'⟩]) p = followedIn ms p ++ [r] := by
    rw [followedIn, filterMap_snoc, hfollowed, Option.toList_some]
    rfl
  have hy : yieldedIn (ms ++ [⟨g, .control p, g'⟩]) p = yieldedIn ms p ++ new := by
    simp [yieldedIn, Moment.yielded_control hw hw', hitems]
  rw [Walked, hf, hy]
  refine hfate.imp ?_ ?_
  · rintro ⟨hgoing, hgo⟩
    refine ⟨_, hgo, fun w'' hw'' => ?_⟩
    cases hw'.symm.trans hw''
    exact ⟨hmax, .inl ⟨hgoing, rfl⟩⟩
  · rintro ⟨hnone, hover⟩
    refine ⟨hover, fun w'' hw'' => ?_⟩
    cases hw'.symm.trans hw''
    exact hnone

theorem Walked.snoc (h : Walked limit p ms g) (hn : g.Numbered) (hlt : p < g.nextProcess)
    (hstep : g.perform a = some g') : Walked limit p (ms ++ [⟨g, a, g'⟩]) g' := by
  by_cases ha : a = .control p
  · subst ha
    cases hw : g.walkOf? p with
    | none =>
        refine h.keep (Moment.quiet_of_none hw) fun w' hw' => ?_
        obtain ⟨w, hsome, -⟩ := walk_perform hn hlt hstep hw'
        cases hw.symm.trans hsome
    | some w =>
        obtain ⟨w', g₁, hwalk, hw', -⟩ := control_of_walk hw hstep
        obtain ⟨c, hc, ⟨hsignalled, rfl⟩ | ⟨hsignalled, hgoing⟩⟩ := walk?_cases hwalk
        · refine h.keep ⟨?_, ?_⟩ fun w'' hw'' => ?_
          · rw [Moment.followed?_control hw, if_pos hsignalled]
          · rw [Moment.yielded_control hw hw', List.drop_length]
          · cases hw'.symm.trans hw''
            refine ⟨w, hw, rfl, rfl, .inr ⟨rfl, rfl, w, hw, by rw [hc]; rfl, hsignalled⟩⟩
        · have hfollowed : Moment.followed? p ⟨g, .control p, g'⟩ =
              (Process.pages w).result? := by
            rw [Moment.followed?_control hw, hsignalled]
            rfl
          rcases hgoing with ⟨r, hdone, rfl⟩ | ⟨hnot, c', -, rfl⟩
          · refine h.follow hw (by rw [hc]; rfl) ?_ hw'
            exact hfollowed.trans (result?_of_done hc hdone)
          · refine h.keep ⟨?_, ?_⟩ fun w'' hw'' => ?_
            · exact hfollowed.trans (result?_of_going hc hnot)
            · rw [Moment.yielded_control hw hw', List.drop_length]
            · cases hw'.symm.trans hw''
              exact ⟨w, hw, rfl, rfl, .inl (by rw [hc]; rfl)⟩
  · refine h.keep (Moment.quiet_of_other ha) fun w' hw' => ?_
    obtain ⟨w, hw, hsame⟩ := walk_perform hn hlt hstep hw'
    obtain ⟨items, rfl⟩ := hsame ha
    exact ⟨w, hw, rfl, rfl, .inl rfl⟩

theorem Run.walked (hn : g₀.Numbered) (hlt : p < g₀.nextProcess) (hw : g₀.walkOf? p = some w)
    (hcall : w.call.isSome = true) (hskipped : w.skipped = 0) (hr : Run g₀ ms g) :
    Walked w.maxSkipped p ms g := by
  induction hr with
  | nil =>
      refine .inl ⟨0, .start, fun w' hw' => ?_⟩
      cases hw.symm.trans hw'
      exact ⟨rfl, .inl ⟨hcall, hskipped⟩⟩
  | snoc hrun hstep ih =>
      exact ih.snoc (hrun.numbered hn) (Nat.lt_of_lt_of_le hlt (hrun.grown hn)) hstep

def Gateway.unread (p : ProcessId) (g : Gateway) : List Message :=
  (((g.walkOf? p).bind fun w => (Process.pages w).result?).bind Except.toOption).toList

theorem handle_of_call? {c c' : Call} {g₁ : Gateway} {m : Message}
    (h : g.call? p c = some (c', g₁)) (hdone : c'.stage = .done (.ok m)) :
    ∃ k, c.handle? = some k := by
  unfold call? at h
  cases hs : c.stage with
  | start =>
      simp only [hs] at h
      cases h
      unfold beginCall at hdone
      split at hdone
      · cases hdone
      · dsimp only at hdone
        split at hdone <;> cases hdone
  | sending k d => exact ⟨k, by rw [Call.handle?, hs]⟩
  | waiting k deadline => exact ⟨k, by rw [Call.handle?, hs]⟩
  | done r => simp [hs] at h

theorem unread_receipt {c c' : Call} {g₁ : Gateway} (hw : g.walkOf? p = some w)
    (hc : w.call = some c) (hcall : g.call? p c = some (c', g₁))
    (hw' : g'.walkOf? p = some { w with call := some c' }) :
    g'.unread p <+ (Moment.receipt? p ⟨g, a, g'⟩).toList.map Prod.snd := by
  rw [Gateway.unread, hw', Option.bind_some, Process.result?, Process.call?, Option.bind_some]
  split
  · rename_i r hdone
    cases r with
    | error e => exact List.nil_sublist _
    | ok m =>
        obtain ⟨k, hk⟩ := handle_of_call? hcall hdone
        have hreceipt : Moment.receipt? p ⟨g, a, g'⟩ = some (k.session, m) := by
          refine Moment.receipt?_eq_some.mpr ⟨k, ⟨?_, ?_⟩, rfl⟩
          · rw [held?_eq (process?_of_walkOf? hw), Process.handle?, Process.call?, hc]
            exact hk
          · rw [process?_of_walkOf? hw']
            simp [Process.result?, Process.call?, hdone]
        rw [hreceipt]
        exact .refl _
  · exact List.nil_sublist _

theorem Moment.followed_sublist (hn : g.Numbered) (hlt : p < g.nextProcess)
    (hstep : g.perform a = some g') :
    ((Moment.followed? p ⟨g, a, g'⟩).bind Except.toOption).toList ++ g'.unread p <+
      g.unread p ++ (Moment.receipt? p ⟨g, a, g'⟩).toList.map Prod.snd := by
  by_cases ha : a = .control p
  · subst ha
    cases hw : g.walkOf? p with
    | none =>
        have hw' : g'.walkOf? p = none := by
          refine Option.eq_none_iff_forall_ne_some.mpr fun w' hw' => ?_
          obtain ⟨w, hsome, -⟩ := walk_perform hn hlt hstep hw'
          cases hw.symm.trans hsome
        rw [(Moment.quiet_of_none hw).1, Gateway.unread, hw']
        exact List.nil_sublist _
    | some w =>
        obtain ⟨w', g₁, hwalk, hw', -⟩ := control_of_walk hw hstep
        obtain ⟨c, hc, ⟨hsignalled, rfl⟩ | ⟨hsignalled, hgoing⟩⟩ := walk?_cases hwalk
        · rw [Moment.followed?_control hw, if_pos hsignalled, Gateway.unread, hw']
          exact List.nil_sublist _
        · rw [Moment.followed?_control hw, hsignalled]
          rcases hgoing with ⟨r, hdone, rfl⟩ | ⟨hnot, c', hcall, rfl⟩
          · have hnone : g'.unread p = [] := by
              rw [Gateway.unread, hw', Option.bind_some, Process.result?, Process.call?]
              cases hcall : (w.follow r).call with
              | none => rfl
              | some c' =>
                  rw [Option.bind_some, stage_follow hcall]
                  rfl
            rw [hnone, List.append_nil, Gateway.unread, hw, Option.bind_some,
              result?_of_done hc hdone]
            exact List.sublist_append_left ..
          · rw [if_neg Bool.false_ne_true, result?_of_going hc hnot]
            exact (unread_receipt hw hc hcall hw').trans (List.sublist_append_right ..)
  · rw [(Moment.quiet_of_other ha).1, Option.bind_none, Option.toList_none, List.nil_append]
    cases hw' : g'.walkOf? p with
    | none =>
        rw [Gateway.unread, hw']
        exact List.nil_sublist _
    | some w' =>
        obtain ⟨w, hw, hsame⟩ := walk_perform hn hlt hstep hw'
        obtain ⟨items, rfl⟩ := hsame ha
        have hunread : g'.unread p = g.unread p := by
          rw [Gateway.unread, Gateway.unread, hw, hw']
          rfl
        rw [hunread]
        exact List.sublist_append_left ..

theorem Run.followed (hn : g₀.Numbered) (hlt : p < g₀.nextProcess) (hfree : g₀.unread p = [])
    (hr : Run g₀ ms g) : (followedIn ms p).filterMap Except.toOption ++ g.unread p <+
      (ms.filterMap (Moment.receipt? p)).map Prod.snd := by
  induction hr with
  | nil =>
      rw [hfree]
      exact .slnil
  | @snoc ms g a g' hrun hstep ih =>
      have hstep := Moment.followed_sublist (hrun.numbered hn)
        (Nat.lt_of_lt_of_le hlt (hrun.grown hn)) hstep
      have hf : (followedIn (ms ++ [⟨g, a, g'⟩]) p).filterMap Except.toOption =
          (followedIn ms p).filterMap Except.toOption ++
            ((Moment.followed? p ⟨g, a, g'⟩).bind Except.toOption).toList := by
        rw [followedIn, filterMap_snoc, List.filterMap_append]
        cases Moment.followed? p ⟨g, a, g'⟩ with
        | none => rfl
        | some r => exact congrArg _ (filterMap_snoc _ [] r)
      rw [hf, filterMap_snoc, List.map_append, List.append_assoc]
      refine ((List.Sublist.refl _).append hstep).trans ?_
      rw [← List.append_assoc]
      exact ih.append (.refl _)

end Run

def Gateway.IsPast (p : ProcessId) (g : Gateway) : Prop :=
  g.process? p = none ∨ ∃ w, g.walkOf? p = some w ∧ w.call = none

/-- What can be told of a walk from all that has happened since it began. -/
structure Listed (limit : Nat) (p : ProcessId) (ms : List Moment) (g : Gateway) : Prop where
  complete : ∀ w, g.walkOf? p = some w → w.call = none → (∀ m ∈ ms, ¬ m.Halts p) →
    ∃ last, (yieldedIn ms p).getLast? = some last ∧
      (last.error.isSome = true ∨ ∃ v, last.HasPage v ∧ nextCursor? v = none)
  error_last : ∀ y ∈ (yieldedIn ms p).dropLast, y.error = none
  page : ∀ y ∈ yieldedIn ms p, y.error = none → ∃ v, y.HasPage v
  /-- The pages are responses to requests of the walk, in the order in which these have come in. -/
  responses : ∃ rs, rs <+ ms.filterMap Moment.arrival? ∧
    rs.map Prod.snd = (yieldedIn ms p).filter (·.error.isNone) ∧
    ∀ x ∈ rs, ∃ m ∈ ms, ∃ h, m.Returns p h x.2 ∧ h.session = x.1 ∧ x.2.id = some h.id
  blank : ∀ pre run post, followedIn ms p = pre ++ run ++ post → (∀ r ∈ run, Blank r) →
    run.length < max 1 limit ∨
      run.length = max 1 limit ∧ post = [] ∧ (∀ w, g.walkOf? p = some w → w.call = none) ∧
        ∃ error, (yieldedIn ms p).getLast? = some (.failure none error)
  forgotten : g.IsPast p → ∀ m ∈ ms, ∀ h, m.after.held? p = some h → ∀ r e, g.Pends r e →
    e.ticket ≠ h.ticket

section Run

open Gateway

variable {g₀ g : Gateway} {before ms : List Moment} {b : Moment} {p : ProcessId} {limit : Nat}
  {sessionId method : String} {params : Option Json.Value} {client : ClientSettings}

theorem Walked.error_last (h : Walked limit p ms g) :
    ∀ y ∈ (yieldedIn ms p).dropLast, y.error = none := by
  intro y hy
  rcases h with ⟨n, hgo, -⟩ | ⟨hover, -⟩
  · obtain ⟨v, hpage⟩ := hgo.pages y (List.dropLast_subset _ hy)
    exact hpage.1
  · obtain ⟨first, last, hys, hfirst, -⟩ := hover.items
    rw [hys, List.dropLast_concat] at hy
    obtain ⟨v, hpage⟩ := hfirst y hy
    exact hpage.1

theorem Walked.page (h : Walked limit p ms g) :
    ∀ y ∈ yieldedIn ms p, y.error = none → ∃ v, y.HasPage v := by
  intro y hy herror
  rcases h with ⟨n, hgo, -⟩ | ⟨hover, -⟩
  · exact hgo.pages y hy
  · obtain ⟨first, last, hys, hfirst, hlast⟩ := hover.items
    rw [hys] at hy
    rcases List.mem_append.mp hy with hy | hy
    · exact hfirst y hy
    · obtain rfl := List.mem_singleton.mp hy
      rcases hlast with hsome | ⟨v, hpage, -⟩
      · rw [herror] at hsome
        cases hsome
      · exact ⟨v, hpage⟩

theorem Walked.heard (h : Walked limit p ms g) :
    (yieldedIn ms p).filter (·.error.isNone) <+ (followedIn ms p).filterMap Except.toOption := by
  rcases h with ⟨n, hgo, -⟩ | ⟨hover, -⟩
  · exact List.filter_sublist.trans hgo.heard
  · exact hover.heard

/-- A walk through a listing, whatever the peer does, and whatever else goes on. -/
theorem listed (h₀ : g₀.IsNew) (hr : Run g₀ (before ++ b :: ms) g)
    (hb : b.act = .listPages sessionId method params client) :
    (∃ token, b.after.walkOf? b.before.nextProcess = some
      (.start sessionId method params client.requestTimeout client.maxSkippedPages token)) ∧
    Listed client.maxSkippedPages b.before.nextProcess ms g := by
  obtain ⟨hrun, hstep, hrest⟩ := hr.split rfl
  have hnb := hrun.numbered h₀.numbered
  have hrun' := hrun.snoc hstep
  have hn := hrun'.numbered h₀.numbered
  have hl := hrun'.lent h₀
  have hw : b.after.walkOf? b.before.nextProcess = some (.start sessionId method params
      client.requestTimeout client.maxSkippedPages b.before.nextToken) := by
    rw [hb] at hstep
    rw [← Option.some.inj hstep]
    exact walkOf?_eq (process?_listPages hnb)
  have hlt : b.before.nextProcess < b.after.nextProcess := by
    refine Nat.not_le.mp fun hge => ?_
    cases (hn _ hge).symm.trans (process?_of_walkOf? hw)
  have hfree : b.after.held? b.before.nextProcess = none := held?_eq (process?_of_walkOf? hw)
  have hunread : b.after.unread b.before.nextProcess = [] := by
    rw [Gateway.unread, hw]
    rfl
  have hwalked : Walked client.maxSkippedPages b.before.nextProcess ms g :=
    hrest.walked hn hlt hw rfl rfl
  have hreceived := hrest.received hn hl hfree
  refine ⟨⟨_, hw⟩, ?_, hwalked.error_last, hwalked.page, ?_, ?_, ?_⟩
  · intro w hwg hnone hquiet
    rcases hwalked with ⟨n, -, hwalks⟩ | ⟨hover, -⟩
    · rcases (hwalks w hwg).2 with ⟨hsome, -⟩ | ⟨-, m, hm, hhalts⟩
      · rw [hnone] at hsome
        cases hsome
      · exact (hquiet m hm hhalts).elim
    · obtain ⟨first, last, hys, -, hlast⟩ := hover.items
      exact ⟨last, by rw [hys, List.getLast?_concat], hlast⟩
  · have hsub := hwalked.heard.trans
      ((List.sublist_append_left ..).trans (hrest.followed hn hlt hunread))
    obtain ⟨rs, hrs, heq⟩ := List.sublist_map_iff.mp hsub
    refine ⟨rs, hrs.trans hreceived.arrived, heq.symm, fun x hx => ?_⟩
    obtain ⟨m, hm, hreceipt⟩ := List.mem_filterMap.mp (hrs.subset hx)
    obtain ⟨h, hret, hsession⟩ := Moment.receipt?_eq_some.mp hreceipt
    exact ⟨m, hm, h, hret, hsession, hreceived.named m hm h _ hret⟩
  · intro pre run post hf hblank
    rcases hwalked with ⟨n, hgo, -⟩ | ⟨hover, hwalks⟩
    · exact .inl (hgo.blank_lt hf hblank).1
    · refine (hover.blank_le hf hblank).imp_right ?_
      rintro ⟨hlen, hpost, herror⟩
      exact ⟨hlen, hpost, hwalks, herror⟩
  · intro hpast m hm h hh r e he
    have hnone : g.held? b.before.nextProcess = none := by
      rcases hpast with hgone | ⟨w, hwg, hcall⟩
      · rw [Gateway.held?, hgone]
        rfl
      · rw [held?_eq (process?_of_walkOf? hwg), Process.handle?, Process.call?, hcall]
        rfl
    obtain ⟨first, rest, rfl⟩ := List.append_of_mem hm
    rw [← List.cons_append, ← List.append_assoc] at hr
    exact hr.forgotten h₀ hh (by simp [hnone]) he

end Run

/-- What lists something of a peer that answers with a page and then with nothing, twice. -/
def Act.listing : List Act :=
  let turn (id : Int) (result : Option Json.Value) : List Act :=
    [.control 0, .control 0, .resolve 0 { id := some (.number id), result }, .control 0, .control 0]
  [.openSession ["a"] "owner" .client {},
    .listPages "a" "tools/list" none { maxSkippedPages := 2 }] ++
    turn 1 (some (.ofFields [("nextCursor", .string "c")])) ++ turn 2 none ++ turn 3 (some .null)

theorem listed_truncated : ∃ (before ms : List Moment) (b : Moment) (g : Gateway) (w : PageWalk)
    (page last : Message), Run (Gateway.new {} []) (before ++ b :: ms) g ∧
    b.act = .listPages "a" "tools/list" none { maxSkippedPages := 2 } ∧
    Listed 2 b.before.nextProcess ms g ∧ g.walkOf? b.before.nextProcess = some w ∧
    w.call = none ∧ yieldedIn ms b.before.nextProcess = [page, last] ∧ page.error = none ∧
    last.error.isSome = true := by
  obtain ⟨ms, g, hr, hacts, h⟩ := Run.exists_of_replay Act.listing (Gateway.new {} [])
    (fun ms g => (ms[1]?.any fun b => b.before.nextProcess = 0) ∧
      ((g.walkOf? 0).any fun w => w.call.isNone) ∧
      (yieldedIn (ms.drop 2) 0).length = 2 ∧
        (yieldedIn (ms.drop 2) 0).getLast?.any fun last => last.error.isSome)
    (by decide +kernel)
  obtain ⟨hb, hw, hlength, hlast⟩ := of_decide_eq_true h
  obtain ⟨b, hb, hp⟩ := (Option.any_eq_true ..).mp hb
  obtain ⟨w, hw, hcall⟩ := (Option.any_eq_true ..).mp hw
  have hp : b.before.nextProcess = 0 := of_decide_eq_true hp
  have hact : b.act = .listPages "a" "tools/list" none { maxSkippedPages := 2 } :=
    (Option.some.inj (Moment.act_of_acts hacts hb)).symm
  rw [← take_append_cons_drop hb] at hr
  obtain ⟨-, hlisted⟩ := listed ⟨{}, [], 0, rfl⟩ hr hact
  obtain ⟨page, last, hys⟩ := List.length_eq_two.mp hlength
  rw [hys] at hlast
  rw [← hp] at hys hw
  have hpage : page.error = none := hlisted.error_last page (by simp [hys])
  exact ⟨_, _, b, g, w, page, last, hr, hact, hlisted, hw, Option.isNone_iff_eq_none.mp hcall, hys,
    hpage, hlast⟩

end AgentGateway
