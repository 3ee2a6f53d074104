import RoutePages.Number.Shortest
import RoutePages.Script.Tree

/-!
# Literals

The value of an expression that is plain data. Whatever would have to be run is
rejected, with the name of the construct and its span.
-/
namespace RoutePages.Script

/-- Plain data. A bare identifier stands for itself. -/
inductive Literal where
  | null
  | bool (value : Bool)
  | number (value : Double)
  | text (value : Text)
  | ident (name : Text)
  | array (items : List Literal)
  | object (fields : List (Text × Literal))

def Literal.kind : Literal → Text
  | null => "null"
  | bool _ => "真偽値"
  | number _ => "数値"
  | text _ => "文字列"
  | ident _ => "識別子"
  | array _ => "配列"
  | object _ => "オブジェクト"

/-- A construct that is no data. -/
structure Rejection where
  construct : Text
  span : Span

def Form.construct : Form → Text
  | call => "関数呼び出し"
  | new => "new 式"
  | arrow => "アロー関数"
  | function => "関数式"
  | classBody => "クラス式"
  | markup => "JSX"
  | member | chain => "メンバーアクセス"
  | binary => "二項演算"
  | assignment | update => "代入"
  | conditional => "条件演算"
  | taggedTemplate => "タグ付きテンプレート"
  | awaiting => "await / yield"
  | sequence => "カンマ演算"
  | assertedChain | prefixed | other => "式"

/-- The text of a key that is not computed. -/
def Key.text? : Key → Option Text
  | name value _ | string value _ => some value
  | number value _ => some value.display
  | bigint _ | computed _ _ => none

mutual

/-- The literal that an expression is. -/
def Expr.evaluate : Expr → Except Rejection Literal
  | .null _ => .ok .null
  | .bool value _ => .ok (.bool value)
  | .number value _ => .ok (.number value)
  | .string value _ => .ok (.text value)
  | .ident name _ => .ok (.ident name)
  | .bigint span => .error ⟨"BigInt", span⟩
  | .regex span => .error ⟨"正規表現", span⟩
  | .paren inner _ => inner.evaluate
  | .asType inner _ => inner.evaluate
  | .asConst inner _ => inner.evaluate
  | .minus (.number value _) _ => .ok (.number value.neg)
  | .minus _ span => .error ⟨"単項演算", span⟩
  | .template [piece] [] _ => .ok (.text piece)
  | .template _ _ span => .error ⟨"テンプレートリテラル", span⟩
  | .array elements span => (Element.evaluateAll span elements).map .array
  | .object props span => (Property.evaluateAll span props).map .object
  | .compound form _ span => .error ⟨form.construct, span⟩

def Element.evaluateAll (whole : Span) : List Element → Except Rejection (List Literal)
  | [] => .ok []
  | .hole :: _ => .error ⟨"配列の空要素", whole⟩
  | .spread _ :: _ => .error ⟨"スプレッド構文", whole⟩
  | .item value :: rest => do
    let first ← value.evaluate
    let more ← Element.evaluateAll whole rest
    return first :: more

/-- The fields of an object with the given span, in source order. -/
def Property.evaluateAll (whole : Span) : List Property → Except Rejection (List (Text × Literal))
  | [] => .ok []
  | .spread _ :: _ => .error ⟨"スプレッド構文", whole⟩
  | .default _ _ span :: _ => .error ⟨"メソッド定義", span⟩
  | .method _ span :: _ => .error ⟨"メソッド定義", span⟩
  | .shorthand name _ :: rest => do
    let more ← Property.evaluateAll whole rest
    return (name, .ident name) :: more
  | .field key value :: rest =>
    match key.text? with
    | none => .error ⟨"計算されたプロパティ名", key.span⟩
    | some name => do
      let first ← value.evaluate
      let more ← Property.evaluateAll whole rest
      return (name, first) :: more

end

end RoutePages.Script
