import RoutePages.Page.Plan

/-!
# Page templates

The texts from which the files of a page are made. `HEADERTITLE` stands for the
title of the page and `COMPONENT` for the name of its component.
-/
namespace RoutePages

structure Templates where
  blank : Text
  /-- the component of a page with a table -/
  table : Text
  service : Text

namespace Templates

def blankPage : Text := Text.lines [
  "import \x7b defineComponent \x7d from 'vue'",
  "",
  "// @page HEADERTITLE",
  "const COMPONENT = defineComponent(() => \x7b",
  "",
  "  return () => (",
  "    <div>HEADERTITLE</div>",
  "  )",
  "\x7d)",
  "",
  "export default COMPONENT"]

def tablePage : Text := Text.lines [
  "import IntegrationTable, \x7b IntegrationTableProps \x7d from '@/components/IntegrationTable'",
  "import \x7b DynamicFormItem \x7d from '@/components/DynamicForm'",
  "import \x7b ColumnProps \x7d from 'ant-design-vue/lib/table/interface'",
  "import \x7b defineComponent, onMounted \x7d from 'vue'",
  "",
  "// @page HEADERTITLE",
  "const COMPONENT = defineComponent(() => \x7b",
  "",
  "  // columns",
  "  const columns: ColumnProps[] = [",
  "    \x7b",
  "      title: 'title',",
  "      dataIndex: 'dataIndex',",
  "    \x7d,",
  "  ]",
  "",
  "  // filter form items",
  "  const filterItems: DynamicFormItem[] = [",
  "    \x7b",
  "      type: 'text',",
  "      label: 'label',",
  "      name: 'name',",
  "    \x7d,",
  "  ]",
  "",
  "  // create & edit form items",
  "  const formItems: DynamicFormItem[] = [",
  "    \x7b",
  "      type: 'text',",
  "      label: 'label',",
  "      name: 'name',",
  "      required: true,",
  "    \x7d,",
  "  ]",
  "",
  "  const tableProps: IntegrationTableProps = \x7b",
  "    rowKey: 'index',",
  "    scroll: \x7b x: 1000 \x7d,",
  "    columns,",
  "    formItems,",
  "    filterItems,",
  "    listProps: \x7b",
  "      url: '/url',",
  "    \x7d",
  "  \x7d",
  "",
  "  onMounted(() => \x7b",
  "",
  "  \x7d)",
  "",
  "  return () => (",
  "    <IntegrationTable \x7b...tableProps\x7d />",
  "  )",
  "\x7d)",
  "",
  "export default COMPONENT"]

/-- The requests of a page. -/
def serviceFile : Text := Text.lines [
  "import request from '@/utils/request'",
  "",
  "// @service HEADERTITLE",
  "",
  "export const queryList = (params?: any) => request('/url', \x7b params \x7d)",
  "",
  "export const create = (data: any) => request('/url', \x7b method: 'POST', data \x7d)",
  "",
  "export const update = (data: any) => request('/url', \x7b method: 'PUT', data \x7d)",
  "",
  "export const remove = (id: string | number) => " ++
    "request(`/url/$\x7bid\x7d`, \x7b method: 'DELETE' \x7d)"]

/-- The templates used where a project has none of its own. -/
def bundled : Templates := ⟨blankPage, tablePage, serviceFile⟩

/-- Puts in the title, and then the name of the component. -/
def render (template title component : Text) : Text :=
  (template.replace "HEADERTITLE" title).replace "COMPONENT" component

def componentText (t : Templates) (plan : PagePlan) : Text :=
  render (if plan.table then t.table else t.blank) plan.name plan.componentName

def serviceText (t : Templates) (plan : PagePlan) : Text :=
  render t.service plan.name plan.componentName

end Templates

inductive PageFile where
  | component
  | service
  deriving DecidableEq

namespace PageFile

def name : PageFile → Text
  | component => "index.tsx"
  | service => "service.tsx"

def path (f : PageFile) (plan : PagePlan) (pagesRoot : FilePath) : FilePath :=
  (plan.page.directory pagesRoot).join f.name

def text (f : PageFile) (t : Templates) (plan : PagePlan) : Text :=
  match f with
  | component => t.componentText plan
  | service => t.serviceText plan

end PageFile

/-- The files that a plan asks for. -/
def PagePlan.files (plan : PagePlan) : List PageFile :=
  if plan.service then [.component, .service] else [.component]

end RoutePages
