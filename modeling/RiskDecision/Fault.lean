import RiskDecision.Decoding
import RiskDecision.Domain
import RiskDecision.Json.Written
import RiskDecision.Value.Basic

/-!
# Faults

Everything that can go wrong in loading and deciding, by cause. A fault has a code for programs and
a message for people; both are functions of the cause.
-/

namespace RiskDecision

/-- The cause of a failure. -/
inductive Fault
  /-- A catalog text is not JSON. -/
  | catalogText (domain : String) (flaw : Json.Flaw)
  /-- A catalog is not an array. -/
  | catalogKind (domain : String) (actual : Json.Kind)
  /-- A configuration payload is not an object. -/
  | payloadKind (actual : Json.Kind)
  /-- The rules of a configuration payload are not an object. -/
  | payloadRulesKind (actual : Json.Kind)
  /-- A rule does not decode. -/
  | ruleShape (error : DecodeError)
  /-- A rule has no identifier. -/
  | blankRuleId
  /-- A clause of the rule names no field. -/
  | blankField (ruleId : String)
  | typeMismatch (expected actual : Value.Kind)
  /-- The literal of a membership test is neither text nor list. -/
  | notMembers (actual : Value.Kind)
  /-- The literal of a range test is not a list of two. -/
  | notBounds (literal : Value)
  /-- The bounds of a range test are not numbers. -/
  | boundsNotNumbers
  | missingDecision
  | missingFlag
  | unsupportedOperator (name : String)
  | unsupportedConnective (name : String)
  | unsupportedAction (name : String)
  | unknownDomain (name : String)
  /-- No catalog is published for the domain. -/
  | domainNotInitialized (name : String)
  | domainMismatch (expected actual : BusinessDomain)
  /-- Features cannot be derived without the context that the client sends. -/
  | missingClientContext (domain : BusinessDomain)
  | serviceClosed
  /-- A text is not JSON. -/
  | jsonText (flaw : Json.Flaw)
  /-- A JSON value does not decode. -/
  | jsonShape (error : DecodeError)
  deriving Repr

namespace Fault

/-- The code of a fault. -/
def code : Fault → String
  | .catalogText .. | .catalogKind .. | .payloadKind _ | .payloadRulesKind _ | .ruleShape _ =>
    "PARSE_ERROR"
  | .blankRuleId | .blankField _ => "INVALID_RULE"
  | .typeMismatch .. => "TYPE_MISMATCH"
  | .notMembers _ | .notBounds _ | .boundsNotNumbers | .missingDecision | .missingFlag =>
    "INVALID_OPERAND"
  | .unsupportedOperator _ | .unsupportedConnective _ => "UNSUPPORTED_OPERATOR"
  | .unsupportedAction _ => "UNSUPPORTED_ACTION"
  | .unknownDomain _ => "UNKNOWN_DOMAIN"
  | .domainNotInitialized _ => "DOMAIN_NOT_INITIALIZED"
  | .domainMismatch .. => "DOMAIN_MISMATCH"
  | .missingClientContext _ => "PREPROCESS_FAILED"
  | .serviceClosed => "SERVICE_CLOSED"
  | .jsonText _ | .jsonShape _ => "JSON_ERROR"

/-- What precedes the wording of a JSON error in a message. -/
def jsonHeading : String := "JSON 序列化错误: "

/-- What precedes the details of a parse error in a message. -/
def parseHeading : String := "规则解析失败: "

/-- What precedes the wording of a JSON error in the message about a catalog text. -/
def catalogTextHeading (domain : String) : String :=
  parseHeading ++ "目录 " ++ domain ++ " 不是合法 JSON: "

/-- The message of a fault. -/
def message : Fault → String
  | .catalogText domain flaw => catalogTextHeading domain ++ flaw.message
  | .catalogKind domain actual =>
    parseHeading ++ "目录 " ++ domain ++ " 顶层必须是数组, 实际 " ++ actual.name
  | .payloadKind actual => parseHeading ++ "配置负载必须是对象, 实际 " ++ actual.name
  | .payloadRulesKind actual => parseHeading ++ "rules 必须是对象, 实际 " ++ actual.name
  | .ruleShape error => parseHeading ++ error.message
  | .blankRuleId => "规则  无效: ruleId 不能为空"
  | .blankField ruleId => "规则 " ++ ruleId ++ " 无效: 子句 field 不能为空"
  | .typeMismatch expected actual =>
    "类型不匹配: 期望 " ++ expected.name ++ ", 实际 " ++ actual.name
  | .notMembers actual => "无效的操作数: IN_LIST 需要字符串或列表, 实际 " ++ actual.name
  | .notBounds literal => "无效的操作数: BETWEEN 需要两个元素的列表, 实际 " ++ literal.display
  | .boundsNotNumbers => "无效的操作数: BETWEEN 边界必须是数值"
  | .missingDecision => "无效的操作数: SET_DECISION 缺少决策值"
  | .missingFlag => "无效的操作数: ADD_FLAG 缺少标记值"
  | .unsupportedOperator name => "不支持的操作符: " ++ name
  | .unsupportedConnective name => (DecodeError.unknownConnective name).message
  | .unsupportedAction name => "不支持的动作类型: " ++ name
  | .unknownDomain name => "未知的业务域: " ++ name
  | .domainNotInitialized name => "业务域未初始化: " ++ name
  | .domainMismatch expected actual =>
    "交易记录与业务域不匹配: 期望 " ++ expected.name ++ ", 实际 " ++ actual.name
  | .missingClientContext domain => "特征预处理失败: " ++ domain.name ++ " 交易缺少 clientContext"
  | .serviceClosed => "决策服务已关闭"
  | .jsonText flaw => jsonHeading ++ flaw.message
  | .jsonShape error => jsonHeading ++ error.message

end Fault

end RiskDecision
