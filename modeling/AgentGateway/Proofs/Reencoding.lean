import AgentGateway.Proofs.Layouts
import AgentGateway.Rpc.Message
import AgentGateway.Task.Request

namespace AgentGateway

open Json (Value)
open Decode (Stable)
open Layout (Restores)

theorem Decode.stable_int32 : Stable int32 .int := stable_intBetween

theorem RequestId.decode_eq_ok {v : Value} {id : RequestId} (h : decode v = .ok id) :
    v = id.encode := by
  unfold decode at h
  split at h
  · cases h
    rfl
  · split at h <;> cases h
    rename_i hn
    exact (Decode.intBetween_eq_ok.mp hn).1

theorem RequestId.stable : Stable decode encode where
  again _ h := decode_eq_ok h ▸ h
  solid _ hv h := decode_eq_ok h ▸ hv

theorem RpcError.stable : Stable decode encode :=
  Restores.stable
    (.seq (.optionalValue fun _ => rfl) <|
      .seq (.required Decode.stable_string fun _ => rfl) <|
        .map (.required Decode.stable_int32 fun _ _ _ => rfl))
    (by decide)

theorem Message.stable : Stable decode encode :=
  Restores.stable
    (.seq (.optionalValue fun _ => rfl) <|
      .seq (.optional RpcError.stable fun _ => rfl) <|
        .seq (.optionalValue fun _ => rfl) <|
          .seq (.optionalValue fun _ => rfl) <|
            .seq (.optional Decode.stable_string fun _ => rfl) <|
              .seq (.optional RequestId.stable fun _ => rfl) <|
                .map (.withDefault Decode.stable_string rfl fun _ _ _ _ _ _ _ => rfl))
    (by decide)

theorem Message.decode_parsed {frame : String} {m : Message} (h : parse frame = .ok m) :
    decode m.encode = .ok m := by
  obtain ⟨v, hv, h⟩ := bind_eq_ok.mp h
  exact stable.again (Json.ordered_of_readText (mapError_eq_ok.mp hv)) (mapError_eq_ok.mp h)

theorem Decode.stable_variant {α : Type} {known : List (String × α)} {expected : String}
    {name : α → String} (h : ∀ a, known.lookup (name a) = some a) :
    Stable (variant known expected) fun a => .string (name a) where
  again {_ a} _ _ := by
    unfold variant variant.choose
    dsimp only
    rw [h a]
  solid _ _ _ := by simp

theorem Role.stable : Stable decode encode :=
  Decode.stable_variant fun r => by cases r <;> rfl

theorem TaskState.stable : Stable decode encode :=
  Decode.stable_variant fun s => by cases s <;> rfl

theorem FileContent.stable : Stable decode encode :=
  Restores.stable
    (.seq (.optional Decode.stable_string fun _ => rfl) <|
      .seq (.optional Decode.stable_string fun _ => rfl) <|
        .seq (.optional Decode.stable_string fun _ => rfl) <|
          .map (.optional Decode.stable_string fun _ _ _ _ => rfl))
    (by decide)

namespace Part

variable {kind : String} {l : Layout Part} {tag content : Value} {p : Part}

theorem restores (h : layouts.lookup kind = some l) :
    (l.Restores fun p out => p.encode = .ofPresent (("type", some (.string kind)) :: out)) ∧
      l.names = [kind] ∧ kind ≠ "type" := by
  have hmem := mem_of_lookup h
  simp only [layouts, List.mem_cons, Prod.mk.injEq, List.not_mem_nil, or_false] at hmem
  obtain ⟨rfl, rfl⟩ | ⟨rfl, rfl⟩ | ⟨rfl, rfl⟩ := hmem
  · exact ⟨.map (.required Decode.stable_string fun _ => rfl), rfl, by decide⟩
  · exact ⟨.map (.required FileContent.stable fun _ => rfl), rfl, by decide⟩
  · exact ⟨.map (.required Decode.stable_value fun _ => rfl), rfl, by decide⟩

theorem decodeTagged_encode (hcontent : content.Ordered) (h : decodeTagged tag content = .ok p) :
    decode p.encode = .ok p := by
  unfold decodeTagged at h
  split at h
  · rename_i kind
    split at h
    · rename_i l hl
      obtain ⟨hrestores, hnames, hkind⟩ := restores hl
      obtain ⟨written, hw, hg⟩ := Layout.gather_of_decode hcontent h
      obtain ⟨out, hout, hkeys, hagain⟩ := hrestores hw hg
      rw [hnames] at hkeys
      have hnodup : ((("type", some (Value.string kind)) :: out).map Prod.fst).Nodup := by
        simpa [hkeys] using hkind.symm
      have hget (key : String) := @Value.lookup_ofPresent _ key hnodup
      rw [hout]
      unfold Value.ofPresent Value.ofFields decode
      have htag := hget "type"
      rw [lookup_cons_key, if_pos rfl] at htag
      simp only [htag, Option.join_some, decodeTagged, hl]
      refine mapError_eq_ok.mpr (hagain _ fun e he => ?_)
      have hkey : e.1 ≠ "type" := by
        have hmem : e.1 ∈ out.map Prod.fst := List.mem_map_of_mem he
        rw [hkeys] at hmem
        exact List.mem_singleton.mp hmem ▸ hkind
      rw [lookup_filter_key, if_neg hkey, hget, lookup_of_mem hnodup (List.mem_cons_of_mem _ he)]
      rfl
    · cases h
  · cases h

theorem stable : Stable decode encode where
  again {v p} hv h := by
    cases hv with
    | @object fields hascends hfields =>
        unfold decode at h
        dsimp only at h
        split at h
        · cases h
        · refine decodeTagged_encode (.object (hascends.filter _) fun e he => ?_) h
          exact hfields e (List.mem_filter.mp he).1
    | @array items hitems =>
        cases items with
        | nil => cases h
        | cons tag rest =>
            exact decodeTagged_encode (.array fun v hv => hitems v (List.mem_cons_of_mem _ hv)) h
    | null | bool | number | string => cases h
  solid {_ p} _ _ _ := by cases p <;> exact Value.noConfusion

end Part

theorem TaskMessage.stable : Stable decode encode :=
  Restores.stable
    (.seq (.optionalValue fun _ => rfl) <|
      .seq (.required Part.stable.list fun _ => rfl) <|
        .map (.required Role.stable fun _ _ _ => rfl))
    (by decide)

theorem TaskStatus.stable : Stable decode encode :=
  Restores.stable
    (.seq (.optional Decode.stable_string fun _ => rfl) <|
      .seq (.optional TaskMessage.stable fun _ => rfl) <|
        .map (.required TaskState.stable fun _ _ _ => rfl))
    (by decide)

theorem Artifact.stable : Stable decode encode :=
  Restores.stable
    (.seq (.optionalValue fun _ => rfl) <|
      .seq (.withDefault Decode.stable_bool rfl fun _ => rfl) <|
        .seq (.withDefault Decode.stable_bool rfl fun _ => rfl) <|
          .seq (.required Decode.stable_natBits fun _ => rfl) <|
            .seq (.required Part.stable.list fun _ => rfl) <|
              .seq (.optional Decode.stable_string fun _ => rfl) <|
                .map (.optional Decode.stable_string fun _ _ _ _ _ _ _ => rfl))
    (by decide)

theorem Decode.stringMap_eq_ok {fields : List (String × Value)} {hs : List (String × String)}
    (h : stringMap (.object fields) = .ok hs) : fields = hs.map fun (k, s) => (k, .string s) := by
  unfold stringMap at h
  dsimp only at h
  induction fields generalizing hs with
  | nil =>
      cases h
      rfl
  | cons e fields ih =>
      rw [List.mapM_cons] at h
      obtain ⟨x, hx, h⟩ := bind_eq_ok.mp h
      obtain ⟨hs', hhs', h⟩ := bind_eq_ok.mp h
      cases h
      obtain ⟨s, hs, hx⟩ := bind_eq_ok.mp hx
      cases hx
      obtain ⟨k, v⟩ := e
      dsimp only at hs
      cases v with
      | string =>
          cases hs
          rw [ih hhs', List.map_cons]
      | null | bool | number | array | object => cases hs

theorem Decode.stable_stringMap :
    Stable stringMap fun hs => .ofFields (hs.map fun (k, s) => (k, .string s)) where
  again {v hs} hv h := by
    cases hv with
    | object hascends _ =>
        have hfields := stringMap_eq_ok h
        subst hfields
        rw [Value.ofFields, hascends.ofList_eq]
        exact h
    | null | bool | number | string | array => cases h
  solid _ _ _ := Value.noConfusion

namespace TaskMetadata

variable {m : TaskMetadata}

theorem decode_encode (hextra : KeyOrder.Ascends m.extra) (hkey : "headers" ∉ m.extra.map Prod.fst)
    (hheaders : ∀ hs ∈ m.headers, Decode.option Decode.stringMap
      (.ofFields (hs.map fun (k, s) => (k, .string s))) = .ok (some hs)) :
    decode m.encode = .ok m := by
  obtain ⟨headers, extra⟩ := m
  obtain ⟨hlookup, hrest⟩ := hextra.beside hkey (o := headers.map fun hs =>
    Value.ofFields (hs.map fun (k, s) => (k, .string s)))
  unfold encode Value.ofFields decode
  dsimp only at hlookup hrest ⊢
  unfold Value.ofFields at hlookup hrest
  rw [hlookup, hrest]
  cases headers with
  | none => rfl
  | some hs => exact bind_eq_ok.mpr ⟨some (some hs), map_eq_ok.mpr ⟨_, hheaders hs rfl, rfl⟩, rfl⟩

theorem stable : Stable decode encode where
  again {v m} hv h := by
    cases hv with
    | @object fields hascends hfields =>
        obtain ⟨headers, hheaders, h⟩ := bind_eq_ok.mp h
        cases h
        refine decode_encode (hascends.filter _) (by simp) fun hs hhs => ?_
        dsimp only at hhs
        cases hlookup : fields.lookup "headers" with
        | none =>
            rw [hlookup] at hheaders
            cases hheaders
            cases hhs
        | some v =>
            rw [hlookup] at hheaders
            obtain ⟨o, ho, rfl⟩ := map_eq_ok.mp hheaders
            exact Decode.again_option Decode.stable_stringMap (hfields _ (mem_of_lookup hlookup)) ho
              hhs
    | null | bool | number | string | array => cases h
  solid _ _ _ := Value.noConfusion

end TaskMetadata

theorem Task.stable : Stable decode encode :=
  Restores.stable
    (.seq (.withDefault TaskMetadata.stable rfl fun _ => rfl) <|
      .seq (.withDefault Artifact.stable.list rfl fun _ => rfl) <|
        .seq (.withDefault TaskMessage.stable.list rfl fun _ => rfl) <|
          .seq (.required TaskStatus.stable fun _ => rfl) <|
            .seq (.optional Decode.stable_string fun _ => rfl) <|
              .map (.required Decode.stable_string fun _ _ _ _ _ _ => rfl))
    (by decide)

theorem TaskSendParams.stable_metadata : Stable decodeMetadata .object where
  again {v fields} hv h := by
    cases hv with
    | object _ _ =>
        cases h
        rfl
    | null | bool | number | string | array => cases h
  solid _ _ _ := Value.noConfusion

theorem TaskSendParams.stable : Stable decode encode :=
  Restores.stable
    (.seq (.optional stable_metadata fun _ => rfl) <|
      .seq (.optional Decode.stable_natBits fun _ => rfl) <|
        .seq (.required TaskMessage.stable fun _ => rfl) <|
          .seq (.optional Decode.stable_string fun _ => rfl) <|
            .map (.required Decode.stable_string fun _ _ _ _ _ => rfl))
    (by decide)

theorem TaskQueryParams.stable : Stable decode encode :=
  Restores.stable
    (.seq (.optional Decode.stable_natBits fun _ => rfl) <|
      .map (.required Decode.stable_string fun _ _ => rfl))
    (by decide)

theorem TaskIdParams.stable : Stable decode encode :=
  Restores.stable (.map (.required Decode.stable_string fun _ => rfl)) (by decide)

theorem StatusEvent.stable : Stable decode encode :=
  Restores.stable
    (.seq (.required Decode.stable_bool fun _ => rfl) <|
      .seq (.required TaskStatus.stable fun _ => rfl) <|
        .map (.required Decode.stable_string fun _ _ _ => rfl))
    (by decide)

theorem ArtifactEvent.stable : Stable decode encode :=
  Restores.stable
    (.seq (.required Artifact.stable fun _ => rfl) <|
      .map (.required Decode.stable_string fun _ _ => rfl))
    (by decide)

/-- A type of what is sent: how it is decoded and how it is written. -/
structure Wire where
  Carrier : Type
  decode : Value → Except DecodeError Carrier
  encode : Carrier → Value

namespace Wire

def all : List Wire :=
  [⟨Message, Message.decode, Message.encode⟩, ⟨RequestId, RequestId.decode, RequestId.encode⟩,
    ⟨RpcError, RpcError.decode, RpcError.encode⟩, ⟨TaskState, TaskState.decode, TaskState.encode⟩,
    ⟨Role, Role.decode, Role.encode⟩, ⟨FileContent, FileContent.decode, FileContent.encode⟩,
    ⟨Part, Part.decode, Part.encode⟩, ⟨TaskMessage, TaskMessage.decode, TaskMessage.encode⟩,
    ⟨TaskStatus, TaskStatus.decode, TaskStatus.encode⟩,
    ⟨Artifact, Artifact.decode, Artifact.encode⟩,
    ⟨TaskMetadata, TaskMetadata.decode, TaskMetadata.encode⟩, ⟨Task, Task.decode, Task.encode⟩,
    ⟨TaskSendParams, TaskSendParams.decode, TaskSendParams.encode⟩,
    ⟨TaskQueryParams, TaskQueryParams.decode, TaskQueryParams.encode⟩,
    ⟨TaskIdParams, TaskIdParams.decode, TaskIdParams.encode⟩,
    ⟨StatusEvent, StatusEvent.decode, StatusEvent.encode⟩,
    ⟨ArtifactEvent, ArtifactEvent.decode, ArtifactEvent.encode⟩]

variable {T : Wire} {v : Value} {t : T.Carrier}

theorem stable (h : T ∈ all) : Stable T.decode T.encode := by
  simp only [all, List.mem_cons, List.not_mem_nil, or_false] at h
  rcases h with rfl | rfl | rfl | rfl | rfl | rfl | rfl | rfl | rfl | rfl | rfl | rfl | rfl | rfl |
    rfl | rfl | rfl
  exacts [Message.stable, RequestId.stable, RpcError.stable, TaskState.stable, Role.stable,
    FileContent.stable, Part.stable, TaskMessage.stable, TaskStatus.stable, Artifact.stable,
    TaskMetadata.stable, Task.stable, TaskSendParams.stable, TaskQueryParams.stable,
    TaskIdParams.stable, StatusEvent.stable, ArtifactEvent.stable]

/-- Whatever is decoded is decoded to the same from what is written for it. The value that it is
decoded from has each key of an object once, as every value has that is read. -/
theorem decode_written (hT : T ∈ all) (hv : v.Ordered) (h : T.decode v = .ok t) :
    T.decode (T.encode t) = .ok t :=
  (stable hT).again hv h

theorem decode_written_by_places :
    let parts := Value.array [.array [.string "data", .null]]
    let message := Value.object [("parts", parts), ("role", .object [("agent", .null)])]
    let status := Value.array [.object [("working", .null)], message]
    let metadata := Value.object [("headers", .object [("a", .string "b")]), ("trace", .null)]
    let v := Value.array [.string "t", .null, status, .array [], .array [], metadata]
    ∃ t, Task.decode v = .ok t ∧ t.metadata.headers = some [("a", "b")] ∧
      Task.decode t.encode = .ok t := by
  intro parts message status metadata v
  have hordered : v.Ordered := by
    simp only [v, metadata, status, message, parts, Value.ordered_array, Value.ordered_object,
      KeyOrder.Ascends, Value.Ordered.null, Value.Ordered.string, List.pairwise_cons,
      List.Pairwise.nil, List.mem_cons, List.not_mem_nil, or_false, or_self_left, forall_eq_or_imp,
      forall_eq, false_implies, implies_true, and_self, String.reduceLT]
  have hdecode : Task.decode v = .ok
      { id := "t"
        status := { state := .working, message := some ⟨.agent, [.data .null], none⟩ }
        metadata := ⟨some [("a", "b")], [("trace", .null)]⟩ } := rfl
  have hmem : (⟨Task, Task.decode, Task.encode⟩ : Wire) ∈ all := by simp [all]
  exact ⟨_, hdecode, rfl, decode_written hmem hordered hdecode⟩

end Wire

end AgentGateway
