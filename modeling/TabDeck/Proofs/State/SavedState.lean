import TabDeck.Proofs.Json.Tokens
import TabDeck.Proofs.State.Payload
import TabDeck.State.SavedState

namespace TabDeck.State.SavedState

open TabDeck.Json (Document Input ReadsBack)

variable {α : Type} {p : Payload α}

def envelope (kind : String) (version : UInt32) (superState state : Document) : Document :=
  .object [
    (Json.glyphs "kind", .string (Json.glyphs kind)),
    (Json.glyphs "version", .number (Json.intText version.toNat)),
    (Json.glyphs "super_state", superState),
    (Json.glyphs "state", state)]

section Envelope

variable (kind : String) (version : UInt32) {superState state : Document}

theorem nesting_envelope :
    (envelope kind version superState state).nesting = max superState.nesting state.nesting + 1 := by
  simp [envelope, Document.nesting, Json.memberNesting]

theorem legible_envelope (hsuper : superState.Legible) (hstate : state.Legible) :
    (envelope kind version superState state).Legible := by
  refine .object _ (fun m hm => ?_) fun m hm => ?_
  · simp only [List.mem_cons, List.not_mem_nil, or_false] at hm
    rcases hm with rfl | rfl | rfl | rfl <;> exact fun _ => Json.legible_glyphs
  · simp only [List.mem_cons, List.not_mem_nil, or_false] at hm
    rcases hm with rfl | rfl | rfl | rfl
    · exact Json.legible_str kind
    · exact Json.legible_int version.toNat
    · exact hsuper
    · exact hstate

theorem record?_envelope (room : Nat) :
    Json.record? ["kind", "version", "super_state", "state"] 4 (room + 1) (envelope kind version superState state) =
      some [some (.string (Json.glyphs kind)), some (.number (Json.intText version.toNat)), some superState,
        some state] := by
  simp [Json.record?, envelope, Json.string?_glyphs, Json.atMostOne?]

end Envelope

theorem written_version (version : UInt32) :
    (Payload.word 32).Written version.toNat (.number (Json.intText version.toNat)) :=
  .integer (Json.unsigned32_holds version)

theorem readsBack_envelope {s : SavedState α} {superState state : Document}
    (hsuper : Payload.bundle.optional.Written s.superState superState) (hstate : p.Written s.state state) :
    ReadsBack (ofDocument? p) (envelope s.kind s.version superState state) s := by
  have hkind (room : Nat) : field? .string room (some (.string (Json.glyphs s.kind))) = some s.kind :=
    (Payload.Written.string s.kind).readsBack.roomy room (Nat.zero_le room)
  have hversion (room : Nat) :
      field? (.word 32) room (some (.number (Json.intText s.version.toNat))) = some (s.version.toNat : Int) :=
    (written_version s.version).readsBack.roomy room (Nat.zero_le room)
  constructor
  · intro room hr
    rw [nesting_envelope] at hr
    obtain ⟨n, rfl⟩ : ∃ n, room = n + 1 := Nat.exists_eq_add_of_le' (Nat.one_le_of_lt hr)
    obtain ⟨hsuperRoom, hstateRoom⟩ := Nat.max_le.mp (Nat.le_of_succ_le_succ hr)
    have hsuperField : field? Payload.bundle.optional n (some superState) = some s.superState :=
      hsuper.readsBack.roomy n hsuperRoom
    have hstateField : field? p n (some state) = some s.state := hstate.readsBack.roomy n hstateRoom
    rw [ofDocument?, record?_envelope]
    simp [hkind, hversion, hsuperField, hstateField]
  · intro room hr
    cases room with
    | zero => rfl
    | succ n =>
      rw [nesting_envelope] at hr
      rw [ofDocument?, record?_envelope]
      -- nothing nests in the kind and the version, so one of the other fields has too little room
      have hdeep : n < superState.nesting ∨ n < state.nesting := by omega
      rcases hdeep with hdeep | hdeep
      · have hsuperField : field? Payload.bundle.optional n (some superState) = none :=
          hsuper.readsBack.narrow n hdeep
        simp [hkind, hversion, hsuperField]
      · have hstateField : field? p n (some state) = none := hstate.readsBack.narrow n hdeep
        simp [hkind, hversion, hstateField]

section Checks

variable {e : Expectation} {kind : String} {version : UInt32}

theorem check_met (hkind : ∀ k ∈ e.kind, k = kind) (hversion : ∀ v ∈ e.version, v = version) :
    e.check kind version = .ok () := by
  obtain ⟨_ | k, _ | v⟩ := e <;> simp_all [Expectation.check, Expectation.check.checkVersion]

theorem check_otherKind {k : String} (hk : k ∈ e.kind) (hne : k ≠ kind) :
    e.check kind version = .error (.kindMismatch k kind) := by
  obtain ⟨_ | k', v⟩ := e <;> simp_all [Expectation.check]

theorem check_otherVersion {v : UInt32} (hkind : ∀ k ∈ e.kind, k = kind) (hv : v ∈ e.version) (hne : v ≠ version) :
    e.check kind version = .error (.versionMismatch v version) := by
  obtain ⟨_ | k, _ | v'⟩ := e <;> simp_all [Expectation.check, Expectation.check.checkVersion]

end Checks

/-- What a reader gets from the parcel of a saved state in whose document so many arrays and objects nest. -/
structure Restored (s : SavedState α) (nesting : Nat) (e : Expectation) (back : Except StateError (SavedState α)) :
    Prop where
  same : back = .ok s ↔ nesting ≤ 127 ∧ (∀ kind ∈ e.kind, kind = s.kind) ∧ ∀ version ∈ e.version, version = s.version
  tooDeep (h : 127 < nesting) : ∃ detail, back = .error (.unreadable detail)
  otherKind (h : nesting ≤ 127) (kind : String) (hkind : kind ∈ e.kind) (hne : kind ≠ s.kind) :
    back = .error (.kindMismatch kind s.kind)
  otherVersion (h : nesting ≤ 127) (hkind : ∀ kind ∈ e.kind, kind = s.kind) (version : UInt32)
    (hversion : version ∈ e.version) (hne : version ≠ s.version) : back = .error (.versionMismatch version s.version)

theorem restored_of_readsBack {s : SavedState α} {d : Document} {parcel : Input}
    (hparcel : Document.read? parcel = some d)
    (h : ReadsBack (ofDocument? p) d s) (e : Expectation) : Restored s d.nesting e (ofParcel p e parcel) := by
  have hnarrow (hd : 127 < d.nesting) : ofParcel p e parcel = .error (.unreadable "no saved state") := by
    have hnone : Document.read? parcel >>= ofDocument? p Json.nestingLimit = none := by
      rw [hparcel]
      exact h.narrow 127 hd
    rw [ofParcel, hnone]
  have hroomy (hd : d.nesting ≤ 127) : ofParcel p e parcel = (e.check s.kind s.version).map fun _ => s := by
    have hsome : Document.read? parcel >>= ofDocument? p Json.nestingLimit = some s := by
      rw [hparcel]
      exact h.roomy 127 hd
    rw [ofParcel, hsome]
    rfl
  have hkind (hd : d.nesting ≤ 127) (kind : String) (hk : kind ∈ e.kind) (hne : kind ≠ s.kind) :
      ofParcel p e parcel = .error (.kindMismatch kind s.kind) := by
    rw [hroomy hd, check_otherKind hk hne]
    rfl
  have hversion (hd : d.nesting ≤ 127) (hk : ∀ kind ∈ e.kind, kind = s.kind) (version : UInt32)
      (hv : version ∈ e.version) (hne : version ≠ s.version) :
      ofParcel p e parcel = .error (.versionMismatch version s.version) := by
    rw [hroomy hd, check_otherVersion hk hv hne]
    rfl
  refine ⟨⟨fun hback => ?_, fun ⟨hd, hk, hv⟩ => ?_⟩, fun hd => ⟨_, hnarrow hd⟩, hkind, hversion⟩
  -- a state that is given back is none of the three errors
  · have hd : d.nesting ≤ 127 := by
      by_contra hd
      cases hback.symm.trans (hnarrow (Nat.lt_of_not_le hd))
    have hk : ∀ kind ∈ e.kind, kind = s.kind := by
      intro kind hk
      by_contra hne
      cases hback.symm.trans (hkind hd kind hk hne)
    refine ⟨hd, hk, fun version hv => ?_⟩
    by_contra hne
    cases hback.symm.trans (hversion hd hk version hv hne)
  · rw [hroomy hd, check_met hk hv]
    rfl

section Parcels

variable {s : SavedState α} {superState state : Document}

theorem toDocument?_envelope (hsuper : Payload.bundle.optional.Written s.superState superState)
    (hstate : p.Written s.state state) : s.toDocument? p = some (envelope s.kind s.version superState state) := by
  rw [toDocument?, hsuper.written, hstate.written]
  rfl

theorem read?_envelope (hsuper : Payload.bundle.optional.Written s.superState superState)
    (hstate : p.Written s.state state) :
    Document.read? (.ofString (envelope s.kind s.version superState state).text) =
      some (envelope s.kind s.version superState state) :=
  Json.read?_text (legible_envelope s.kind s.version hsuper.legible hstate.legible)

theorem restored_envelope (hsuper : Payload.bundle.optional.Written s.superState superState)
    (hstate : p.Written s.state state) (e : Expectation) :
    Restored s (envelope s.kind s.version superState state).nesting e
      (ofParcel p e (.ofBytes (envelope s.kind s.version superState state).text.toUTF8 0)) := by
  have hbytes := read?_envelope hsuper hstate
  rw [← Json.ofBytes_toUTF8] at hbytes
  exact restored_of_readsBack hbytes (readsBack_envelope hsuper hstate) e

end Parcels

theorem ofParcel_toParcel (p : Payload α) (s : SavedState α) (hsuper : ∀ b ∈ s.superState, b.toJson.Exact)
    (hstate : p.Exact s.state) :
    ∃ d text, s.toDocument? p = some d ∧ s.toParcel p = .ok text ∧ Document.read? (.ofString text) = some d ∧
      (∀ e, Restored s d.nesting e (ofParcel p e (.ofBytes text.toUTF8 0))) ∧
      (ofParcel p .any (.ofBytes text.toUTF8 0) = .ok s ↔ d.nesting ≤ 127) := by
  have hparent : Payload.bundle.optional.Exact s.superState := by
    cases hs : s.superState with
    | none => exact .nothing _
    | some b => exact .present _ b (.bundle b (hsuper b hs)) nofun
  obtain ⟨superState, hsuperState⟩ := Payload.exists_written hparent
  obtain ⟨state, hwritten⟩ := Payload.exists_written hstate
  have hdocument := toDocument?_envelope hsuperState hwritten
  have hparcel : s.toParcel p = .ok (envelope s.kind s.version superState state).text := by
    rw [toParcel, hdocument]
  have hrestored := restored_envelope hsuperState hwritten
  refine ⟨_, _, hdocument, hparcel, read?_envelope hsuperState hwritten, hrestored, ?_⟩
  exact (hrestored .any).same.trans ⟨And.left, fun hd => ⟨hd, nofun, nofun⟩⟩

def bookmarks : SavedState (List (Int × Option Int)) :=
  ⟨"book \"é\"", 3, some ⟨[("a\n", .arr [.null, .int (-5)])]⟩, [(-1, none), (10, some (2 ^ 100))]⟩

theorem ofParcel_toParcel_bookmarks :
    let p : Payload (List (Int × Option Int)) := .integerMap (.optional (.signed 128))
    (∀ b ∈ bookmarks.superState, b.toJson.Exact) ∧ p.Exact bookmarks.state ∧
      ∃ d text, bookmarks.toDocument? p = some d ∧ d.nesting = 3 ∧
        bookmarks.toParcel p = .ok text ∧
        ofParcel p .any (.ofBytes text.toUTF8 0) = .ok bookmarks ∧
        ofParcel p ⟨some "tab", some 4⟩ (.ofBytes text.toUTF8 0) =
          .error (.kindMismatch "tab" "book \"é\"") ∧
        ofParcel p ⟨none, some 4⟩ (.ofBytes text.toUTF8 0) =
          .error (.versionMismatch 4 3) := by
  intro p
  have hsuper : ∀ b ∈ bookmarks.superState, b.toJson.Exact := by
    intro b hb
    obtain rfl := Option.some.inj hb
    refine .obj _ (List.pairwise_singleton _ _) fun m hm => ?_
    obtain rfl := List.mem_singleton.mp hm
    refine .arr _ fun j hj => ?_
    rcases List.mem_pair.mp hj with rfl | rfl
    · exact .null
    · exact .int _ rfl
  have hstate : p.Exact bookmarks.state := by
    refine .keyedMap _ _ _ (by decide) (fun e he => ?_) fun e he => ?_
    · rcases List.mem_pair.mp he with rfl | rfl <;> exact .narrow _ _ _ (by decide) (by decide) rfl
    · rcases List.mem_pair.mp he with rfl | rfl
      · exact .nothing _
      · exact .present _ _ (.integer _ _ (.wide _ _ _ (by decide) (by decide))) nofun
  have hnesting : (bookmarks.toDocument? p).map Document.nesting = some 3 := by rfl
  obtain ⟨d, text, hd, ht, -, hback, hany⟩ := ofParcel_toParcel p bookmarks hsuper hstate
  rw [hd] at hnesting
  have hdeep : d.nesting = 3 := Option.some.inj hnesting
  have hroom : d.nesting ≤ 127 := by omega
  refine ⟨hsuper, hstate, d, text, hd, hdeep, ht, hany.mpr hroom, ?_, ?_⟩
  · exact (hback ⟨some "tab", some 4⟩).otherKind hroom "tab" rfl (by decide)
  · exact (hback ⟨none, some 4⟩).otherVersion hroom nofun 4 rfl (by decide)

theorem ofParcel_toParcel_null :
    let s : SavedState (Option Json) := ⟨"tab", 1, none, some .null⟩
    ∃ d text, s.toDocument? Payload.json.optional = some d ∧ d.nesting ≤ 127 ∧
      s.toParcel Payload.json.optional = .ok text ∧
      ofParcel Payload.json.optional .any (.ofBytes text.toUTF8 0) = .ok ⟨"tab", 1, none, none⟩ ∧
      ofParcel Payload.json.optional .any (.ofBytes text.toUTF8 0) ≠ .ok s := by
  intro s
  let nothing : SavedState (Option Json) := ⟨"tab", 1, none, none⟩
  have hsuper : Payload.bundle.optional.Written nothing.superState .null := .nothing _
  have hstate : Payload.json.optional.Written nothing.state .null := .nothing _
  have hnesting : (envelope nothing.kind nothing.version .null .null).nesting ≤ 127 := by decide
  have hback : ofParcel Payload.json.optional .any
      (.ofBytes (envelope nothing.kind nothing.version .null .null).text.toUTF8 0) = .ok nothing :=
    (restored_envelope hsuper hstate .any).same.mpr ⟨hnesting, nofun, nofun⟩
  refine ⟨_, _, rfl, hnesting, rfl, hback, ?_⟩
  intro hs
  exact Option.some_ne_none Json.null (congrArg state (Except.ok.inj (hs.symm.trans hback)))

end TabDeck.State.SavedState
