import Baas.Lib.JsonText

/-! Which trigger commands there are, and what each of them asks of its request. -/
namespace Baas.TriggerCommandCatalog

open JsonText (ascii)

abbrev Bytes := List UInt8

inductive TriggerCommandFamily
  | scheduler | task | configuration | diagnostics | update | backend | device | status
deriving DecidableEq

inductive TriggerCommandSelection
  | exact | prefixed
deriving DecidableEq

inductive TriggerCommandResponseMode
  | single | stream
deriving DecidableEq

inductive TriggerConfigIdRequirement
  | notRequired | required
deriving DecidableEq

inductive TriggerInboundBinaryPolicy
  | forbidden | required
deriving DecidableEq

/-- The canonical name is the name of the command, or a prefix and a star. -/
structure TriggerCommandDescriptor where
  canonicalName : Bytes
  family : TriggerCommandFamily
  selection : TriggerCommandSelection
  responseMode : TriggerCommandResponseMode
  configId : TriggerConfigIdRequirement
  inboundBinary : TriggerInboundBinaryPolicy
deriving DecidableEq

def commandRules : List TriggerCommandDescriptor :=
  [⟨ascii "test_all_sha_stream", .diagnostics, .exact, .stream, .notRequired, .forbidden⟩,
    ⟨ascii "update_to_latest_stream", .update, .exact, .stream, .notRequired, .forbidden⟩,
    ⟨ascii "start_scheduler", .scheduler, .exact, .single, .required, .forbidden⟩,
    ⟨ascii "stop_scheduler", .scheduler, .exact, .single, .required, .forbidden⟩,
    ⟨ascii "solve", .task, .exact, .single, .required, .forbidden⟩,
    ⟨ascii "start_*", .task, .prefixed, .single, .required, .forbidden⟩,
    ⟨ascii "add_config*", .configuration, .prefixed, .single, .notRequired, .forbidden⟩,
    ⟨ascii "remove_config*", .configuration, .prefixed, .single, .notRequired, .forbidden⟩,
    ⟨ascii "copy_config", .configuration, .exact, .single, .notRequired, .forbidden⟩,
    ⟨ascii "export_config", .configuration, .exact, .single, .notRequired, .forbidden⟩,
    ⟨ascii "import_config", .configuration, .exact, .single, .notRequired, .required⟩,
    ⟨ascii "detect_adb", .diagnostics, .exact, .single, .notRequired, .forbidden⟩,
    ⟨ascii "valid_cdk", .diagnostics, .exact, .single, .notRequired, .forbidden⟩,
    ⟨ascii "test_all_sha", .diagnostics, .exact, .single, .notRequired, .forbidden⟩,
    ⟨ascii "check_for_update", .update, .exact, .single, .notRequired, .forbidden⟩,
    ⟨ascii "update_setup_toml", .update, .exact, .single, .notRequired, .forbidden⟩,
    ⟨ascii "update_to_latest", .update, .exact, .single, .notRequired, .forbidden⟩,
    ⟨ascii "restart_backend", .backend, .exact, .single, .notRequired, .forbidden⟩,
    ⟨ascii "stop_all_tasks", .task, .exact, .single, .notRequired, .forbidden⟩,
    ⟨ascii "control_device", .device, .exact, .single, .required, .forbidden⟩,
    ⟨ascii "status", .status, .exact, .single, .notRequired, .forbidden⟩]

def ruleMatches (rule : TriggerCommandDescriptor) (command : Bytes) : Bool :=
  match rule.selection with
  | .exact => command == rule.canonicalName
  | .prefixed =>
    if rule.canonicalName.getLast? ≠ some 42 then false
    else rule.canonicalName.dropLast.isPrefixOf command

/-- The first rule that matches; none stands for an unknown command. -/
def lookup (command : Bytes) : Option TriggerCommandDescriptor :=
  commandRules.find? (ruleMatches · command)

end Baas.TriggerCommandCatalog
