import NodeHealthcheckOperator.Apimachinery.GoMap
import NodeHealthcheckOperator.Apimachinery.Selector
import NodeHealthcheckOperator.Api.Webhook
import NodeHealthcheckOperator.Api.Json
import NodeHealthcheckOperator.Apiserver.Admission
import NodeHealthcheckOperator.Apiserver.Run
import NodeHealthcheckOperator.Apiserver.Design
import NodeHealthcheckOperator.Apiserver.Controller
import NodeHealthcheckOperator.Apiserver.Server
