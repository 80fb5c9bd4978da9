import Charter.Event
import Charter.Proposal.Document

/-! # Events in documents

The form in which events are handed to whoever keeps the books. -/

namespace Charter

def Happening.toJson : Happening → Json
  | .proposed proposer provision entrenched =>
    .obj [("type", .str "proposed"), ("proposer", .str proposer), ("provision_key", .str provision),
      ("entrenched", .bool entrenched)]
  | .panelSelected stage size =>
    .obj [("type", .str "panel_selected"), ("stage", .str stage.name), ("panel_size", .ofNat size)]
  | .voteCast stage voter =>
    .obj [("type", .str "vote_cast"), ("stage", .str stage.name), ("voter", .str voter)]
  | .challengeFiled challenger =>
    .obj [("type", .str "challenge_filed"), ("challenger", .str challenger)]
  | .coolingOffStarted endsAt =>
    .obj [("type", .str "cooling_off_started"), ("ends_at", endsAt.toJson)]
  | .statusChanged source target =>
    .obj [("type", .str "status_changed"), ("from", .str source.name), ("to", .str target.name)]
  | .phaseReset chamber phase =>
    .obj [("type", .str "phase_reset"), ("chamber", .str chamber.name), ("phase", .str phase)]

def Event.toJson (e : Event) : Json :=
  .obj [("proposal_id", .ofNat e.proposal.toNat), ("kind", e.happening.toJson),
    ("status", .str e.status.name), ("at", e.time.toJson)]

end Charter
