import SushidaOs.PyStr

/-!
# SushidaOs.Contracts.Report

The errors that `tools/check-contracts.py` collects.
-/

namespace SushidaOs

namespace Contracts

/-- The `code` of an error, for the passes that are modelled. -/
inductive ErrorCode where
  | driftConfigFormat
  | driftConfigKey
  | driftConfigDuplicate
  | runtimeUrlMismatch
  | driftTimeout
  | driftUrl
  | unsupportedKeyword
  | schemaRequired
  | schemaUnknown
  | schemaNot
  | schemaConst
  | schemaType
  | schemaMinLength
  | schemaPattern
  | schemaFormat
  | schemaEnum
  | schemaBound
  | schemaMinItems
  | schemaDuplicate
  deriving DecidableEq, Repr

/-- An entry of `Result.errors`. -/
structure ContractError where
  code : ErrorCode
  contract : PyStr
  field : PyStr
  file : PyStr
  message : PyStr
  deriving DecidableEq, Repr

end Contracts

end SushidaOs
