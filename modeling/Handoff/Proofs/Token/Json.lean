import Handoff.Proofs.Component.Json
import Handoff.Token.Json

/-!
# Token sets written and read back

Each token is read back from its record, and a token set with its tokens in order,
with or without the note of where it comes from (`TokenSet.roundTrips`). With the
components this is all that is derived from a design (`derived_reads_back`).
-/

namespace Handoff

open Json

theorem Rgb8.roundTrips (c : Rgb8) : RoundTrips ofJson? toJson c := by
  refine ⟨?_, Json.noConfusion⟩
  unfold ofJson?
  simp only [↓bind_eq_some_iff]
  refine ⟨_, rfl,
    c.r, required_of_lookup ?_ (roundTrips_uint8 _),
    c.g, required_of_lookup ?_ (roundTrips_uint8 _),
    c.b, required_of_lookup ?_ (roundTrips_uint8 _), rfl⟩
  all_goals simp [List.lookup_cons]

theorem ColorToken.roundTrips {t : ColorToken} (ht : AllFinite t.numbers) :
    RoundTrips ofJson? toJson t := by
  refine ⟨?_, Json.noConfusion⟩
  have hopacity := allFinite_singleton.mp ht
  unfold ofJson?
  simp only [↓bind_eq_some_iff]
  refine ⟨_, rfl,
    t.name, required_of_lookup ?_ (roundTrips_string _),
    t.hex, required_of_lookup ?_ (roundTrips_string _),
    t.rgb, required_of_lookup ?_ (Rgb8.roundTrips _),
    t.opacity, required_of_lookup ?_ (roundTrips_number hopacity), rfl⟩
  all_goals simp [List.lookup_cons]

theorem TypographyToken.roundTrips {t : TypographyToken} (ht : AllFinite t.numbers) :
    RoundTrips ofJson? toJson t := by
  refine ⟨?_, Json.noConfusion⟩
  simp only [numbers, allFinite_append, allFinite_cons, allFinite_toList] at ht
  obtain ⟨⟨hsize, hheight, -⟩, hspacing⟩ := ht
  unfold ofJson?
  simp only [↓bind_eq_some_iff]
  refine ⟨_, rfl,
    t.name, required_of_lookup ?_ (roundTrips_string _),
    t.fontFamily, required_of_lookup ?_ (roundTrips_string _),
    t.fontSize, required_of_lookup ?_ (roundTrips_number hsize),
    t.fontWeight, required_of_lookup ?_ (roundTrips_uint16 _),
    t.lineHeight, required_of_lookup ?_ (roundTrips_number hheight),
    t.letterSpacing, optional_of_lookup ?_ fun x hx => roundTrips_number (hspacing x hx), rfl⟩
  all_goals simp [List.lookup_cons]

theorem SpacingToken.roundTrips {t : SpacingToken} (ht : AllFinite t.numbers) :
    RoundTrips ofJson? toJson t := by
  refine ⟨?_, Json.noConfusion⟩
  have hvalue := allFinite_singleton.mp ht
  unfold ofJson?
  simp only [↓bind_eq_some_iff]
  refine ⟨_, rfl,
    t.name, required_of_lookup ?_ (roundTrips_string _),
    t.value, required_of_lookup ?_ (roundTrips_number hvalue), rfl⟩
  all_goals simp [List.lookup_cons]

theorem ShadowToken.roundTrips {t : ShadowToken} (ht : AllFinite t.numbers) :
    RoundTrips ofJson? toJson t := by
  refine ⟨?_, Json.noConfusion⟩
  have hkind : RoundTrips kind? (fun _ => .string "shadow") () := ⟨rfl, Json.noConfusion⟩
  simp only [numbers, allFinite_cons] at ht
  obtain ⟨hx, hy, hblur, hspread, hopacity, -⟩ := ht
  unfold ofJson?
  simp only [↓bind_eq_some_iff]
  refine ⟨_, rfl,
    (), required_of_lookup ?_ hkind,
    t.name, required_of_lookup ?_ (roundTrips_string _),
    t.inset, orDefault_of_lookup ?_ (roundTrips_bool _),
    t.x, required_of_lookup ?_ (roundTrips_number hx),
    t.y, required_of_lookup ?_ (roundTrips_number hy),
    t.blur, required_of_lookup ?_ (roundTrips_number hblur),
    t.spread, required_of_lookup ?_ (roundTrips_number hspread),
    t.color, required_of_lookup ?_ (roundTrips_string _),
    t.opacity, required_of_lookup ?_ (roundTrips_number hopacity), rfl⟩
  all_goals simp [List.lookup_cons]

theorem Provenance.roundTrips (p : Provenance) : RoundTrips ofJson? toJson p := by
  refine ⟨?_, Json.noConfusion⟩
  unfold ofJson?
  simp only [↓bind_eq_some_iff]
  refine ⟨_, rfl,
    p.extractedAt, required_of_lookup ?_ (roundTrips_string _),
    p.documentId, required_of_lookup ?_ (roundTrips_string _),
    p.pageIds, required_of_lookup ?_ (roundTrips_list fun s _ => roundTrips_string s),
    p.version, required_of_lookup ?_ (roundTrips_string _), rfl⟩
  all_goals simp [List.lookup_cons]

/-- **Token sets are read back** from what is written for them. -/
theorem TokenSet.roundTrips {t : TokenSet} (ht : AllFinite t.numbers) :
    RoundTrips ofJson? toJson t := by
  refine ⟨?_, Json.noConfusion⟩
  simp only [numbers, allFinite_append, allFinite_flatMap] at ht
  obtain ⟨⟨⟨hcolors, htypography⟩, hspacing⟩, heffects⟩ := ht
  unfold ofJson?
  simp only [↓bind_eq_some_iff]
  refine ⟨_, rfl,
    t.colors, required_of_lookup ?_ (roundTrips_list fun c hc =>
      ColorToken.roundTrips (hcolors c hc)),
    t.typography, required_of_lookup ?_ (roundTrips_list fun s hs =>
      TypographyToken.roundTrips (htypography s hs)),
    t.spacing, required_of_lookup ?_ (roundTrips_list fun s hs =>
      SpacingToken.roundTrips (hspacing s hs)),
    t.effects, required_of_lookup ?_ (roundTrips_list fun e he =>
      ShadowToken.roundTrips (heffects e he)),
    t.provenance, optional_of_lookup ?_ fun p _ => Provenance.roundTrips p, rfl⟩
  all_goals simp [List.lookup_cons]

/--
**What is derived from a design is read back.** A component and a token set with finite numbers are
read back from what is written for them.
-/
theorem derived_reads_back :
    (∀ c : Component, AllFinite c.numbers → Component.ofJson? c.toJson = some c)
      ∧ ∀ t : TokenSet, AllFinite t.numbers → TokenSet.ofJson? t.toJson = some t :=
  ⟨fun _ hc => (Component.roundTrips hc).read, fun _ ht => (TokenSet.roundTrips ht).read⟩

/-- A card with a placeholder in it, and a set of tokens that says where it comes from. -/
theorem derived_reads_back_card :
    let card : Widget := {
      id := "1:1", name := "Card", kind := .frame, backgroundColor := some ""
      layout := some ⟨.column, .between, .stretch, some 8⟩, size := some ⟨.px 320.5, .full⟩
      border := some {}, padding := some ⟨0, .negativeZero, 0, 0⟩
      typography := some { alignment := .justify }, shadow := some ⟨"#000", 0, 2, 0.25, 4⟩ }
    let placeholder : Widget := { id := "1:2", name := "", kind := .image, omitted := true }
    let c : Component := ⟨card, [.leaf placeholder]⟩
    let t : TokenSet := {
      colors := [⟨"red", "#FF0000", ⟨255, 0, 0⟩, 0.5⟩]
      typography := [⟨"body", "Inter", 16, 400, 24, none⟩, ⟨"title", "Inter", 32, 700, 40, some 0⟩]
      effects := [⟨"card", true, 0, 2, 4, 0, "#000000", 0.25⟩]
      provenance := some ⟨"2024-01-01T00:00:00Z", "file", ["0:1", "0:2"], "1.0.0"⟩ }
    AllFinite c.numbers ∧ AllFinite t.numbers
      ∧ Component.ofJson? c.toJson = some c ∧ TokenSet.ofJson? t.toJson = some t := by
  intro card placeholder c t
  have hc : AllFinite c.numbers := by decide +kernel
  have ht : AllFinite t.numbers := by decide +kernel
  exact ⟨hc, ht, derived_reads_back.1 c hc, derived_reads_back.2 t ht⟩

end Handoff
